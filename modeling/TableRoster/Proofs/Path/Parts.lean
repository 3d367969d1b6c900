import TableRoster.Path
import TableRoster.Proofs.Drift.Normal
import TableRoster.Proofs.Text.Joined

/-! # The parts of a path

A path is written with a slash between its parts, and no part has a slash, so the text of a path gives
its parts back. -/

namespace TableRoster

namespace Text

variable {c : Char} {l s : List Char} {ls : List (List Char)}

/-- Rows with a mark between them come apart at the mark if none of them has it. -/
theorem splitAt_intercalate (hne : ls ≠ []) (h : ∀ l ∈ ls, c ∉ l) :
    splitAt c ([c].intercalate ls) = ls := by
  induction ls with
  | nil => exact absurd rfl hne
  | cons x ls ih =>
    obtain ⟨hx, hls⟩ := List.forall_mem_cons.1 h
    cases ls with
    | nil => simpa using splitAt_of_not_mem hx
    | cons y ls =>
      rw [List.intercalate_cons_cons, List.append_assoc, List.singleton_append, splitAt_append_cons,
        splitAt_of_not_mem hx, ih (by simp) hls, List.singleton_append]

theorem mem_of_mem_splitAt (h : l ∈ splitAt c s) : c ∉ l ∧ ∀ x ∈ l, x ∈ s := by
  induction s generalizing l with
  | nil =>
    obtain rfl : l = [] := by simpa [splitAt] using h
    simp
  | cons a s ih =>
    unfold splitAt at h
    split at h
    · obtain rfl | h := List.mem_cons.1 h
      · simp
      · exact ⟨(ih h).1, fun x hx => List.mem_cons_of_mem _ ((ih h).2 x hx)⟩
    · rename_i hac
      split at h
      · rename_i hs
        exact absurd hs (splitAt_ne_nil c s)
      · rename_i p ps hs
        rw [hs] at ih
        obtain rfl | h := List.mem_cons.1 h
        · obtain ⟨hc, hsub⟩ := ih List.mem_cons_self
          refine ⟨by simpa [Ne.symm hac] using hc, fun x hx => ?_⟩
          obtain rfl | hx := List.mem_cons.1 hx
          · exact List.mem_cons_self
          · exact List.mem_cons_of_mem _ (hsub x hx)
        · obtain ⟨hc, hsub⟩ := ih (List.mem_cons_of_mem _ h)
          exact ⟨hc, fun x hx => List.mem_cons_of_mem _ (hsub x hx)⟩

end Text

namespace Path

variable {p q : Path} {part : String} {parts : List String} {text : List Char}

/-- A part of a path, as it stands between slashes. -/
structure IsPart (part : String) : Prop where
  ne_empty : part ≠ ""
  ne_dot : part ≠ "."
  no_slash : '/' ∉ part.toList

/-- A path that a text writes. -/
def Written (p : Path) : Prop :=
  ∀ part ∈ p.parts, IsPart part

/-! ## From a text to the parts -/

theorem isPart_of_mem_partsOf (h : part ∈ partsOf text) :
    IsPart part ∧ ∀ c ∈ part.toList, c ∈ text := by
  simp only [partsOf, List.mem_filter, List.mem_map, decide_eq_true_eq] at h
  obtain ⟨⟨l, hl, rfl⟩, hempty, hdot⟩ := h
  obtain ⟨hslash, hsub⟩ := Text.mem_of_mem_splitAt hl
  exact ⟨⟨hempty, hdot, by simpa using hslash⟩, by simpa using hsub⟩

theorem written_ofString (text : String) : (ofString text).Written :=
  fun _ h => (isPart_of_mem_partsOf h).1

theorem Written.join (hp : p.Written) (hq : q.Written) : (p.join q).Written := by
  unfold Path.join
  split
  · exact hq
  · exact List.forall_mem_append.2 ⟨hp, hq⟩

theorem partsOf_append_slash (s t : List Char) : partsOf (s ++ '/' :: t) = partsOf s ++ partsOf t := by
  simp [partsOf, Text.splitAt_append_cons]

/-! ## From the parts to a text -/

theorem toList_joined (parts : List String) :
    ("/".intercalate parts).toList = ['/'].intercalate (parts.map String.toList) := by
  simp [String.toList_intercalate]

theorem splitAt_joined (hne : parts ≠ []) (h : ∀ part ∈ parts, IsPart part) :
    (Text.splitAt '/' ("/".intercalate parts).toList).map String.ofList = parts := by
  have hslash : ∀ l ∈ parts.map String.toList, '/' ∉ l := by
    simp only [List.forall_mem_map]
    exact fun part hpart => (h part hpart).no_slash
  rw [toList_joined, Text.splitAt_intercalate (by simpa using hne) hslash]
  simp

theorem partsOf_joined (h : ∀ part ∈ parts, IsPart part) :
    partsOf ("/".intercalate parts).toList = parts := by
  by_cases hne : parts = []
  · subst hne
    simp [partsOf, Text.splitAt]
  · rw [partsOf, splitAt_joined hne h, List.filter_eq_self]
    exact fun part hpart => by simp [(h part hpart).ne_empty, (h part hpart).ne_dot]

/-- The text of some parts starts and ends with other characters than a slash. -/
theorem ends_joined (hne : parts ≠ []) (h : ∀ part ∈ parts, IsPart part) :
    (∃ c s, ("/".intercalate parts).toList = c :: s ∧ c ≠ '/')
      ∧ ∃ c s, ("/".intercalate parts).toList = s ++ [c] ∧ c ≠ '/' := by
  rw [toList_joined]
  refine ⟨?_, ?_⟩
  · obtain ⟨part, rest, rfl⟩ := List.exists_cons_of_ne_nil hne
    obtain ⟨hempty, -, hslash⟩ := h part List.mem_cons_self
    obtain ⟨c, s, hs⟩ := List.exists_cons_of_ne_nil (mt String.toList_eq_nil_iff.1 hempty)
    rw [hs, List.mem_cons, not_or] at hslash
    refine ⟨c, s ++ (rest.map String.toList).flatMap (['/'] ++ ·), ?_, Ne.symm hslash.1⟩
    rw [List.map_cons, Text.intercalate_cons, hs, List.cons_append]
  · obtain ⟨init, part, rfl⟩ := List.eq_nil_or_concat' parts |>.resolve_left hne
    obtain ⟨hempty, -, hslash⟩ := h part (by simp)
    obtain ⟨s, c, hs⟩ := (List.eq_nil_or_concat' part.toList).resolve_left
      (mt String.toList_eq_nil_iff.1 hempty)
    have hlast : [part.toList] <:+ (init ++ [part]).map String.toList := by simp
    obtain ⟨front, hfront⟩ := Text.suffix_intercalate ['/'] hlast
    refine ⟨c, front ++ s, by rw [← hfront, hs, List.append_assoc], fun hc => hslash ?_⟩
    simp [hs, hc]

end Path

end TableRoster
