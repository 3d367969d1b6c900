/-! # Texts within texts -/

namespace TableRoster.Text

/-- What is left of a list when its first entries are dropped, from none to all. -/
def suffixes : List α → List (List α)
  | [] => [[]]
  | a :: as => (a :: as) :: suffixes as

theorem mem_suffixes {s t : List α} : s ∈ suffixes t ↔ s <:+ t := by
  induction t with
  | nil => simp [suffixes]
  | cons a as ih =>
    rw [suffixes, List.mem_cons, ih, List.suffix_cons_iff]

def occursIn (needle hay : List Char) : Bool :=
  (suffixes hay).any needle.isPrefixOf

theorem occursIn_iff {needle hay : List Char} : occursIn needle hay = true ↔ needle <:+: hay := by
  simp only [occursIn, List.any_eq_true, mem_suffixes, List.isPrefixOf_iff_prefix,
    List.infix_iff_prefix_suffix, and_comm]

end TableRoster.Text
