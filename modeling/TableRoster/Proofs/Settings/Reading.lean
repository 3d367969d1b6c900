import Mathlib.Data.List.Basic
import TableRoster.Settings.Reading

/-! # Settings that were read

Settings that are read from fields have the form that they need. Only a repetition count in a pattern
ends the program. -/

namespace TableRoster.Settings

variable {α β : Type} {a : Read α} {b : Read β} {x : α} {y : β} {fields : Fields} {key : String}
  {place : List Step} {v : Value} {c : Crash} {s : Settings}

theorem both_eq_ok_iff : both a b = .ok (x, y) ↔ a = .ok x ∧ b = .ok y := by
  cases a <;> cases b <;> simp [both]

theorem map_eq_ok {f : α → β} (h : a.map f = .ok y) : ∃ x, a = .ok x ∧ f x = y := by
  cases a with
  | error ds => cases h
  | ok x => exact ⟨x, rfl, Except.ok.inj h⟩

/-! ## One setting -/

theorem optional_eq_ok {read : List Step → Value → Read α} {own : α}
    (h : optional fields key read own = .ok x) :
    (∃ v, lookup? fields key = some v ∧ read [.key key] v = .ok x)
      ∨ lookup? fields key = none ∧ x = own := by
  unfold optional at h
  split at h
  · rename_i v hv
    exact .inl ⟨v, hv, h⟩
  · rename_i hv
    exact .inr ⟨hv, (Except.ok.inj h).symm⟩

theorem required_eq_ok {read : List Step → Value → Read α} (h : required fields key read = .ok x) :
    ∃ v, lookup? fields key = some v ∧ read [.key key] v = .ok x := by
  unfold required at h
  split at h
  · rename_i v hv
    exact ⟨v, hv, h⟩
  · cases h

theorem readPath_eq_ok {p : Path} (h : readPath place v = .ok p) :
    ∃ t, v = .text t ∧ p = .ofString t := by
  cases v with
  | text t => exact ⟨t, rfl, (Except.ok.inj h).symm⟩
  | _ => cases h

theorem readMarker_ne {t : String} (h : readMarker place v = .ok t) : t ≠ "" := by
  unfold readMarker at h
  cases ht : readText place v with
  | error ds => rw [ht] at h; cases h
  | ok t' =>
    rw [ht] at h
    change (if t' = "" then _ else _) = _ at h
    split at h
    · cases h
    · rename_i hne
      exact Except.ok.inj h ▸ hne

theorem readAggregateName_valid {t : String} (h : readAggregateName place v = .ok t) :
    isAggregateName t.toList = true := by
  unfold readAggregateName at h
  cases ht : readText place v with
  | error ds => rw [ht] at h; cases h
  | ok t' =>
    rw [ht] at h
    change (if isAggregateName t'.toList then _ else _) = _ at h
    split at h
    · rename_i hname
      exact Except.ok.inj h ▸ hname
    · cases h

/-! ## Patterns -/

/-- A text that is read as a pattern, and has a count that is too large. -/
def CountsTooFar (p : String) : Prop :=
  ∃ f, Pattern.ofText p = .error f ∧ f.cause = .largeCount

theorem checkPatterns_ok {ps : List String} {u : Unit} (h : checkPatterns place ps = .ok (.ok u)) :
    ∀ p ∈ ps, IsPattern p := by
  induction ps with
  | nil => simp
  | cons p ps ih =>
    unfold checkPatterns at h
    split at h
    · rename_i q hq
      exact List.forall_mem_cons.2 ⟨⟨q, hq⟩, ih h⟩
    · split at h <;> cases h

theorem checkPatterns_error {ps : List String} (h : checkPatterns place ps = .error c) :
    c = .largeCount ∧ ∃ p ∈ ps, CountsTooFar p := by
  induction ps with
  | nil => cases h
  | cons p ps ih =>
    unfold checkPatterns at h
    split at h
    · obtain ⟨hc, q, hq, hfar⟩ := ih h
      exact ⟨hc, q, List.mem_cons_of_mem _ hq, hfar⟩
    · rename_i f hf
      split at h
      · rename_i hcause
        exact ⟨(Except.error.inj h).symm, p, List.mem_cons_self, f, hf, hcause⟩
      all_goals cases h

theorem readPatterns_ok {ps : List String} (h : readPatterns place v = .ok (.ok ps)) :
    ∀ p ∈ ps, IsPattern p := by
  unfold readPatterns at h
  split at h
  · cases h
  · rename_i ps' _
    cases hc : checkPatterns place ps' with
    | error c => rw [hc] at h; cases h
    | ok r =>
      rw [hc] at h
      obtain ⟨u, rfl, rfl⟩ := map_eq_ok (Except.ok.inj h)
      exact checkPatterns_ok hc

theorem readPatterns_error (h : readPatterns place v = .error c) :
    c = .largeCount ∧ ∃ ps, readTexts place v = .ok ps ∧ ∃ p ∈ ps, CountsTooFar p := by
  unfold readPatterns at h
  split at h
  · cases h
  · rename_i ps hps
    cases hc : checkPatterns place ps with
    | ok r => rw [hc] at h; cases h
    | error c' =>
      rw [hc] at h
      obtain rfl := Except.error.inj h
      exact ⟨(checkPatterns_error hc).1, ps, hps, (checkPatterns_error hc).2⟩

theorem optionalPatterns_ok {own ps : List String} (ho : ∀ p ∈ own, IsPattern p)
    (h : optionalPatterns fields key own = .ok (.ok ps)) : ∀ p ∈ ps, IsPattern p := by
  unfold optionalPatterns at h
  split at h
  · exact readPatterns_ok h
  · exact Except.ok.inj (Except.ok.inj h) ▸ ho

theorem optionalPatterns_error {own : List String} (h : optionalPatterns fields key own = .error c) :
    c = .largeCount ∧ ∃ v ps, lookup? fields key = some v ∧ readTexts [.key key] v = .ok ps
      ∧ ∃ p ∈ ps, CountsTooFar p := by
  unfold optionalPatterns at h
  split at h
  · rename_i v hv
    obtain ⟨hc, ps, hps, hfar⟩ := readPatterns_error h
    exact ⟨hc, v, ps, hv, hps, hfar⟩
  · cases h

theorem isPattern_any : IsPattern ".*" := by
  have hread : (Pattern.ofText ".*").toOption.isSome = true := by decide
  cases h : Pattern.ofText ".*" with
  | ok p => exact ⟨p, h⟩
  | error f => rw [h] at hread; cases hread

/-! ## All settings -/

/-- The settings that fields give, one by one. -/
structure ReadFrom (fields : Fields) (s : Settings) : Prop where
  schemaFolder : required fields "schema_dir" readPath = .ok s.schemaFolder
  outputFile : required fields "output_file" readPath = .ok s.outputFile
  excludeGlobs : optional fields "exclude_patterns" readTexts [] = .ok s.excludeGlobs
  includePatterns : optionalPatterns fields "include_table_patterns" [".*"] = .ok (.ok s.includePatterns)
  excludePatterns : optionalPatterns fields "exclude_table_patterns" [] = .ok (.ok s.excludePatterns)
  emitTypes : optional fields "generate_types" readFlag true = .ok s.emitTypes
  emitNames : optional fields "generate_table_names" readFlag true = .ok s.emitNames
  overrides : optional fields "import_path_mapping" readMapping [] = .ok s.overrides
  marker : optional fields "factory_marker" readMarker "pgTable(" = .ok s.marker
  aggregateName : optional fields "aggregate_name" readAggregateName "dbSchema" = .ok s.aggregateName
  allowDuplicates : optional fields "allow_duplicate_symbols" readFlag false = .ok s.allowDuplicates

theorem readFrom_of_read (h : read fields = .ok (.ok s)) : ReadFrom fields s := by
  unfold read at h
  cases hi : optionalPatterns fields "include_table_patterns" [".*"] with
  | error c => rw [hi] at h; cases h
  | ok included =>
    cases he : optionalPatterns fields "exclude_table_patterns" [] with
    | error c => rw [hi, he] at h; cases h
    | ok excluded =>
      rw [hi, he] at h
      simp only [bind, Except.bind, pure, Except.pure, Except.ok.injEq] at h
      obtain ⟨⟨x₁, x₂, x₃, x₄, x₅, x₆, x₇, x₈, x₉, x₁₀, x₁₁⟩, hall, rfl⟩ := map_eq_ok h
      simp only [both_eq_ok_iff] at hall
      obtain ⟨h₁, h₂, h₃, rfl, rfl, h₆, h₇, h₈, h₉, h₁₀, h₁₁⟩ := hall
      exact ⟨h₁, h₂, h₃, hi, he, h₆, h₇, h₈, h₉, h₁₀, h₁₁⟩

/-- Settings that were read have the form that they need. -/
theorem ReadFrom.valid (h : ReadFrom fields s) : s.Valid where
  include_ok := optionalPatterns_ok (List.forall_mem_singleton.2 isPattern_any) h.includePatterns
  exclude_ok := optionalPatterns_ok (by simp) h.excludePatterns
  marker_ok := by
    obtain ⟨v, -, hv⟩ | ⟨-, he⟩ := optional_eq_ok h.marker
    · exact readMarker_ne hv
    · rw [he]; simp
  aggregate_ok := by
    obtain ⟨v, -, hv⟩ | ⟨-, he⟩ := optional_eq_ok h.aggregateName
    · exact readAggregateName_valid hv
    · rw [he]
      show isAggregateName "dbSchema".toList = true
      decide

theorem read_error (h : read fields = .error c) :
    c = .largeCount ∧ ∃ key ∈ ["include_table_patterns", "exclude_table_patterns"],
      ∃ v ps, lookup? fields key = some v ∧ readTexts [.key key] v = .ok ps
        ∧ ∃ p ∈ ps, CountsTooFar p := by
  unfold read at h
  cases hi : optionalPatterns fields "include_table_patterns" [".*"] with
  | error c' =>
    rw [hi] at h
    obtain rfl := Except.error.inj h
    obtain ⟨hc, hfar⟩ := optionalPatterns_error hi
    exact ⟨hc, _, List.mem_cons_self, hfar⟩
  | ok included =>
    cases he : optionalPatterns fields "exclude_table_patterns" [] with
    | ok excluded => rw [hi, he] at h; cases h
    | error c' =>
      rw [hi, he] at h
      obtain rfl := Except.error.inj h
      obtain ⟨hc, hfar⟩ := optionalPatterns_error he
      exact ⟨hc, _, List.mem_cons_of_mem _ List.mem_cons_self, hfar⟩

end TableRoster.Settings
