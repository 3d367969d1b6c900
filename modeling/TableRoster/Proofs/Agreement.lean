import TableRoster.Proofs.Collection
import TableRoster.Proofs.Drift.Normal
import TableRoster.Validation

/-! # Generating and validating agree

What a generation writes is valid, and a further generation writes the same apart from the time.
Generating and validating compare the same texts. -/

namespace TableRoster

open Disk

variable {s : Settings} {d d' : Disk} {t t' : Timestamp} {g : Generated} {v : Verdict} {a : Aggregate}
  {previous : Option String}

/-! ## Generating -/

/-- What comes of a generation with tables, where there was a text or none. -/
def generatedFrom (s : Settings) (a : Aggregate) (previous : Option String) : Generated :=
  ⟨s.outputFile, some a, true, isUnchanged previous a.text, []⟩

theorem generate_none (h : (Collection.aggregate s s.outputFolder t d).result = .ok none) :
    (generate s t d).1.result
        = .ok ⟨s.outputFile, none, false, false, [Event.noTablesText s.schemaFolder]⟩
      ∧ (generate s t d).2 = d := by
  constructor
  · simp only [generate, Change.bind_result, Change.look_apply, h, Except.bind]
    rfl
  · simp only [generate, Change.bind_disk, Change.look_apply, h]
    rfl

theorem generate_some (h : (Collection.aggregate s s.outputFolder t d).result = .ok (some a))
    (hp : (Output.read? s.outputFile d).result = .ok previous) :
    ((generate s t d).1.result = (Output.write s.outputFile a.text d).1.result.bind
        fun _ => .ok (generatedFrom s a previous))
      ∧ (generate s t d).2 = (Output.write s.outputFile a.text d).2 := by
  constructor
  · simp only [generate, Change.bind_result, Change.look_apply, h, hp, Except.bind]
    rfl
  · simp only [generate, Change.bind_disk, Change.look_apply, h, hp]
    cases (Output.write s.outputFile a.text d).1.result <;> rfl

/-- A generation whose output cannot be read ends there. -/
theorem generate_unread {e : Stop}
    (h : (Collection.aggregate s s.outputFolder t d).result = .ok (some a))
    (hp : (Output.read? s.outputFile d).result = .error e) :
    (generate s t d).1.result = .error e ∧ (generate s t d).2 = d := by
  constructor
  · simp only [generate, Change.bind_result, Change.look_apply, h, hp, Except.bind]
  · simp only [generate, Change.bind_disk, Change.look_apply, h, hp]

/-- A generation that returns found no table, or wrote what the tables make. -/
theorem generate_cases (h : (generate s t d).1.result = .ok g) :
    (Collection.aggregate s s.outputFolder t d).result = .ok none ∧ g.written = false
        ∧ g.unchanged = false
      ∨ ∃ a previous, (Collection.aggregate s s.outputFolder t d).result = .ok (some a)
        ∧ (Output.read? s.outputFile d).result = .ok previous
        ∧ (Output.write s.outputFile a.text d).1.result = .ok () ∧ g = generatedFrom s a previous := by
  cases ha : (Collection.aggregate s s.outputFolder t d).result with
  | error e =>
    simp [generate, Change.bind_result, ha, Except.bind] at h
  | ok made =>
    cases made with
    | none =>
      rw [(generate_none ha).1] at h
      cases h
      exact .inl ⟨rfl, rfl, rfl⟩
    | some a =>
      cases hp : (Output.read? s.outputFile d).result with
      | error e =>
        rw [(generate_unread ha hp).1] at h
        cases h
      | ok previous =>
        rw [(generate_some ha hp).1] at h
        cases hw : (Output.write s.outputFile a.text d).1.result with
        | error e => simp [hw, Except.bind] at h
        | ok u =>
          rw [hw] at h
          cases h
          exact .inr ⟨a, previous, rfl, rfl, hw, rfl⟩

/-- A generation leaves the disk as it was, or as the writing of what the tables make leaves it. -/
theorem generate_disk : (generate s t d).2 = d
    ∨ ∃ a previous, (Collection.aggregate s s.outputFolder t d).result = .ok (some a)
      ∧ (Output.read? s.outputFile d).result = .ok previous
      ∧ (generate s t d).2 = (Output.write s.outputFile a.text d).2 := by
  cases ha : (Collection.aggregate s s.outputFolder t d).result with
  | error e =>
    refine .inl ?_
    simp only [generate, Change.bind_disk, Change.look_apply, ha]
  | ok made =>
    cases made with
    | none => exact .inl (generate_none ha).2
    | some a =>
      cases hp : (Output.read? s.outputFile d).result with
      | error e => exact .inl (generate_unread ha hp).2
      | ok previous => exact .inr ⟨a, previous, rfl, rfl, (generate_some ha hp).2⟩

/-! ## Validating -/

/-- The verdict on a text, for what the tables make. -/
def verdictOn (s : Settings) (actual : Option String) : Option Aggregate → Verdict
  | none => .noTables s.schemaFolder actual
  | some a =>
    match actual with
    | none => .noFile s.outputFile (Drift.normal a.text)
    | some text =>
      if Drift.normal a.text = text then .inSync
      else .drifted s.outputFile (Drift.normal a.text) text

theorem validate_result : (validate s t d).result =
    (Collection.aggregate s s.outputFolder t d).result.bind fun made =>
      (Output.read? s.outputFile d).result.bind fun previous =>
        .ok (verdictOn s (previous.map Drift.normal) made) := by
  simp only [validate, Telling.bind_result, Telling.tell, Except.bind]
  cases (Collection.aggregate s s.outputFolder t d).result with
  | error e => rfl
  | ok made =>
    cases (Output.read? s.outputFile d).result with
    | error e => rfl
    | ok previous =>
      simp only [verdictOn]
      cases made with
      | none => rfl
      | some a =>
        cases previous with
        | none => rfl
        | some p =>
          simp only [Option.map_some]
          split <;> rfl

/-- A verdict is on an aggregate module and a file that could be read. -/
theorem of_validate (h : (validate s t d).result = .ok v) : ∃ made previous,
    (Collection.aggregate s s.outputFolder t d).result = .ok made
      ∧ (Output.read? s.outputFile d).result = .ok previous
      ∧ v = verdictOn s (previous.map Drift.normal) made := by
  rw [validate_result] at h
  cases hm : (Collection.aggregate s s.outputFolder t d).result with
  | error e => simp [hm, Except.bind] at h
  | ok made =>
    cases hp : (Output.read? s.outputFile d).result with
    | error e => simp [hm, hp, Except.bind] at h
    | ok previous =>
      rw [hm, hp] at h
      exact ⟨made, previous, rfl, rfl, (Except.ok.inj h).symm⟩

/-- A verdict is good where a generation would change nothing. -/
theorem isValid_verdictOn {a' : Aggregate} (h : Drift.normal a'.text = Drift.normal a.text) :
    (verdictOn s (previous.map Drift.normal) (some a')).isValid = isUnchanged previous a.text := by
  cases previous with
  | none => rfl
  | some p =>
    simp only [verdictOn, Option.map_some, isUnchanged, h, eq_comm (a := Drift.normal p)]
    split <;> simp_all [Verdict.isValid]

/-! ## After a generation -/

/-- What the tables make carries the time of the run. -/
theorem time_of_aggregate (h : (Collection.aggregate s s.outputFolder t d).result = .ok (some a)) :
    a.time = t := by
  have h' := h
  rw [Collection.aggregate_time t, h] at h'
  simp only [Except.map, Option.map_some, Except.ok.injEq, Option.some.injEq] at h'
  exact (congrArg Aggregate.time h').symm

theorem possible_of_aggregate {made : Option Aggregate}
    (h : (Collection.aggregate s s.outputFolder t d).result = .ok made) :
    ∀ x ∈ s.outputFile.parts, isImpossible x = false := by
  obtain ⟨found, hm⟩ := Collection.modules_of_aggregate h
  obtain ⟨-, output, ho⟩ := Scan.of_modules_result hm
  exact possible_of_realPath ho

theorem normal_text (a : Aggregate) (t : Timestamp) :
    Drift.normal { a with time := t }.text = Drift.normal a.text :=
  Drift.normal_header t a.time a.body

/-- What a disk is after a generation that wrote: the file holds the text of what the tables make,
and at any time the tables make it again. -/
theorem generate_written (ht : IsTree d) (ho : ¬ Output.IsLink d s.outputFile)
    (h : (generate s t d).1.result = .ok g) (hw : g.written = true)
    (hl : Scan.LinksStay s d (generate s t d).2) :
    ∃ a : Aggregate, a.time = t ∧ Output.Written s.outputFile a.text d (generate s t d).2
      ∧ ∀ u, (Collection.aggregate s s.outputFolder u (generate s t d).2).result
        = .ok (some { a with time := u }) := by
  obtain ⟨-, hn, -⟩ | ⟨a, previous, ha, hp, hwrite, rfl⟩ := generate_cases h
  · simp [hn] at hw
  · obtain ⟨-, hdisk⟩ := generate_some ha hp
    have hwritten := Output.write_written ht (possible_of_aggregate ha) ho hwrite
    rw [← hdisk] at hwritten
    refine ⟨a, time_of_aggregate ha, hwritten, fun u => ?_⟩
    rw [Collection.aggregate_time t,
      Collection.aggregate_unnoticed (Scan.unnoticed_of_written hwritten ht hl) ha]
    rfl

theorem validate_after_generate (ht : IsTree d) (ho : ¬ Output.IsLink d s.outputFile)
    (h : (generate s t d).1.result = .ok g) (hw : g.written = true)
    (hl : Scan.LinksStay s d (generate s t d).2) (t' : Timestamp) :
    (validate s t' (generate s t d).2).result = .ok .inSync := by
  obtain ⟨a, -, hwritten, hagain⟩ := generate_written ht ho h hw hl
  rw [validate_result, hagain, hwritten.read?]
  simp only [Except.bind, Option.map_some, verdictOn, Drift.normal_unifyLineEnds, normal_text,
    ↓reduceIte]

theorem generate_after_generate (ht : IsTree d) (ho : ¬ Output.IsLink d s.outputFile)
    (h : (generate s t d).1.result = .ok g) (hw : g.written = true)
    (hl : Scan.LinksStay s d (generate s t d).2) (t' : Timestamp) :
    ∃ g' body, (generate s t' (generate s t d).2).1.result = .ok g' ∧ g'.written = true
      ∧ g'.unchanged = true
      ∧ (generate s t d).2.bytes s.outputFile = .ok (Layout.header t ++ "\n" ++ body).toUTF8
      ∧ (generate s t' (generate s t d).2).2.bytes s.outputFile
        = .ok (Layout.header t' ++ "\n" ++ body).toUTF8 := by
  obtain ⟨a, rfl, hwritten, hagain⟩ := generate_written ht ho h hw hl
  obtain ⟨hresult, hdisk⟩ := generate_some (hagain t') hwritten.read?
  have hok := hwritten.write_ok (Aggregate.text { a with time := t' })
  have hwritten' := Output.write_written hwritten.tree (possible_of_aggregate (hagain t'))
    (mt hwritten.isLink_iff.1 ho) hok
  rw [hok] at hresult
  refine ⟨_, a.body, hresult, rfl, ?_, hwritten.bytes, ?_⟩
  · simp only [generatedFrom, isUnchanged, Drift.normal_unifyLineEnds, normal_text, decide_true]
  · rw [hdisk]
    exact hwritten'.bytes

/-- On any disk, a generation that returns tells whether a validation before it would be good. -/
theorem unchanged_eq_isValid (h : (generate s t d).1.result = .ok g)
    (hv : (validate s t' d).result = .ok v) : g.unchanged = v.isValid := by
  rw [validate_result, Collection.aggregate_time t] at hv
  obtain ⟨ha, -, hu⟩ | ⟨a, previous, ha, hp, -, rfl⟩ := generate_cases h
  · rw [ha] at hv
    cases hp : (Output.read? s.outputFile d).result with
    | error e => simp [hp, Except.map, Except.bind] at hv
    | ok previous =>
      rw [hp] at hv
      cases hv
      exact hu
  · rw [ha, hp] at hv
    cases hv
    exact (isValid_verdictOn (normal_text a t')).symm

/-- Generating and validating agree. On a tree, with an output file that is no link, what a generation
wrote is valid at any time, and a further generation writes the same apart from the time, unless the
first made a link that led nowhere lead to something old that the search takes. And whatever the disk,
a file is unchanged by a generation exactly if it was valid before. -/
theorem generate_agrees_validate (s : Settings) :
    (∀ (d : Disk) (t t' t'' : Timestamp) (g : Generated),
      IsTree d → ¬ Output.IsLink d s.outputFile → (generate s t d).1.result = .ok g →
      g.written = true → Scan.LinksStay s d (generate s t d).2 →
        (validate s t' (generate s t d).2).result = .ok .inSync
        ∧ ∃ g' body, (generate s t'' (generate s t d).2).1.result = .ok g' ∧ g'.written = true
          ∧ g'.unchanged = true
          ∧ (generate s t d).2.bytes s.outputFile = .ok (Layout.header t ++ "\n" ++ body).toUTF8
          ∧ (generate s t'' (generate s t d).2).2.bytes s.outputFile
            = .ok (Layout.header t'' ++ "\n" ++ body).toUTF8)
    ∧ ∀ (d : Disk) (t t' : Timestamp) (g : Generated) (v : Verdict),
      (generate s t d).1.result = .ok g → (validate s t' d).result = .ok v →
        g.unchanged = v.isValid :=
  ⟨fun _ _ t' t'' _ ht ho h hw hl => ⟨validate_after_generate ht ho h hw hl t',
    generate_after_generate ht ho h hw hl t''⟩, fun _ _ _ _ _ h hv => unchanged_eq_isValid h hv⟩

/-! ## A link that led nowhere -/

/-- A module with a table, a link beside it, and a file in another folder with the same table. -/
def linkedDisk (target : String) : Disk :=
  ⟨[(["ws"], .folder), (["ws", "schema"], .folder), (["ws", "real"], .folder),
    (["ws", "real", "b.ts"], .file "export const a = pgTable(1);\n".toUTF8 0),
    (["ws", "schema", "a.ts"], .file "export const a = pgTable(1);\n".toUTF8 0),
    (["ws", "schema", "l.ts"], .link target)], ["ws"], 0⟩

/-- Settings whose output folder is not there yet. -/
def linkedSettings : Settings :=
  ⟨⟨.slash, ["ws", "schema"]⟩, ⟨.slash, ["ws", "out", "index.ts"]⟩, [], [".*"], [], true, true, [],
    "pgTable(", "dbSchema", false⟩

/-- A time to the second. -/
def linkedTime (second : Nat) : Timestamp :=
  ⟨2024, 1, 2, 3, 4, second, 678901, some 0⟩

/-- A first generation on a disk with a link. -/
def linkedRun (target : String) : Telling Generated × Disk :=
  generate linkedSettings (linkedTime 5) (linkedDisk target)

theorem not_isLink_linkedDisk (target : String) :
    ¬ Output.IsLink (linkedDisk target) linkedSettings.outputFile :=
  not_not.2 rfl

/-- The output is missing at first. -/
theorem validate_linkedDisk : ∃ v, (validate linkedSettings (linkedTime 6)
    (linkedDisk "../out/index.ts")).result = .ok v ∧ v.isValid = false :=
  exists_ok_of_map (by decide +kernel)

/-- The generation writes it, and a link to it leads there afterwards. -/
theorem linkedRun_written :
    (∃ g, (linkedRun "../out/index.ts").1.result = .ok g ∧ g.written = true)
      ∧ ((linkedRun "../out/index.ts").2.stat ⟨.slash, ["ws", "schema", "l.ts"]⟩).toOption.map (·.1)
        = some ["ws", "out", "index.ts"] := by
  have hboth : (linkedRun "../out/index.ts").1.result.toOption.map (·.written) = some true
      ∧ ((linkedRun "../out/index.ts").2.stat ⟨.slash, ["ws", "schema", "l.ts"]⟩).toOption.map (·.1)
        = some ["ws", "out", "index.ts"] := by decide +kernel
  exact ⟨exists_ok_of_map hboth.1, hboth.2⟩

/-- A link to the output leads nowhere before, and to the new file afterwards. -/
theorem linksStay_linkedRun : Scan.LinksStay linkedSettings (linkedDisk "../out/index.ts")
    (linkedRun "../out/index.ts").2 := by
  intro folder p name t _ _ hlink _ q n hs _
  have hm := mem_nodes_of_node? (by simp) (link?_eq_some_iff.1 hlink)
  simp only [linkedDisk, List.mem_cons, Prod.mk.injEq, reduceCtorEq, and_false, false_or,
    List.not_mem_nil, or_false] at hm
  have hq := linkedRun_written.2
  rw [hm.1] at hs
  rw [hs] at hq
  cases hq
  decide

/-- The link may come to lead to the file that is written. -/
theorem generate_agrees_validate_new_link :
    ((validate linkedSettings (linkedTime 6) (linkedRun "../out/index.ts").2).result = .ok .inSync
      ∧ ∃ g' body,
        (generate linkedSettings (linkedTime 7) (linkedRun "../out/index.ts").2).1.result = .ok g'
        ∧ g'.written = true ∧ g'.unchanged = true
        ∧ (linkedRun "../out/index.ts").2.bytes linkedSettings.outputFile
          = .ok (Layout.header (linkedTime 5) ++ "\n" ++ body).toUTF8
        ∧ (generate linkedSettings (linkedTime 7) (linkedRun "../out/index.ts").2).2.bytes
            linkedSettings.outputFile
          = .ok (Layout.header (linkedTime 7) ++ "\n" ++ body).toUTF8)
    ∧ ∃ g v, (linkedRun "../out/index.ts").1.result = .ok g
      ∧ (validate linkedSettings (linkedTime 6) (linkedDisk "../out/index.ts")).result = .ok v
      ∧ g.unchanged = v.isValid := by
  obtain ⟨⟨g, hg, hw⟩, -⟩ := linkedRun_written
  obtain ⟨v, hv, -⟩ := validate_linkedDisk
  have ht : IsTree (linkedDisk "../out/index.ts") := by decide
  have ho := not_isLink_linkedDisk "../out/index.ts"
  obtain ⟨hagain, hbefore⟩ := generate_agrees_validate linkedSettings
  exact ⟨hagain _ (linkedTime 5) (linkedTime 6) (linkedTime 7) g ht ho hg hw linksStay_linkedRun,
    g, v, hg, hv, hbefore _ (linkedTime 5) (linkedTime 6) g v hg hv⟩

/-- A link that comes to lead to an old file makes a module of it: here its table is there twice then,
and neither a validation nor a further generation returns. -/
theorem generate_disagrees_old_link :
    IsTree (linkedDisk "../out/../real/b.ts")
      ∧ ¬ Output.IsLink (linkedDisk "../out/../real/b.ts") linkedSettings.outputFile
      ∧ (∃ g, (linkedRun "../out/../real/b.ts").1.result = .ok g ∧ g.written = true)
      ∧ (¬ ∃ v, (validate linkedSettings (linkedTime 6)
          (linkedRun "../out/../real/b.ts").2).result = .ok v ∧ v.isValid = true)
      ∧ ¬ ∃ g, (generate linkedSettings (linkedTime 6)
          (linkedRun "../out/../real/b.ts").2).1.result = .ok g := by
  have hv : (validate linkedSettings (linkedTime 6)
      (linkedRun "../out/../real/b.ts").2).result.toOption.map (·.isValid) = none := by
    decide +kernel
  have hg : (generate linkedSettings (linkedTime 6)
      (linkedRun "../out/../real/b.ts").2).1.result.toOption.map (·.written) = none := by
    decide +kernel
  refine ⟨by decide, not_isLink_linkedDisk _, exists_ok_of_map (by decide +kernel), ?_, ?_⟩
  · rintro ⟨v, h, -⟩
    rw [h] at hv
    cases hv
  · rintro ⟨g, h⟩
    rw [h] at hg
    cases hg

end TableRoster
