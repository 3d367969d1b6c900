import Mathlib.Data.List.Basic

/-! # Rows that are joined

Rows with a mark between them can be told apart if the mark is in none of them. -/

namespace TableRoster.Text

variable {α β : Type} {c : α} {s x y r t : List α} {ls ls' : List (List α)}

/-- The first of its kind in a row parts the row in one way. -/
theorem append_cons_inj_of_first {p : α → Prop} {a b : α} (hx : ∀ z ∈ x, ¬ p z) (ha : p a)
    (hy : ∀ z ∈ y, ¬ p z) (hb : p b) (h : x ++ a :: r = y ++ b :: t) : x = y ∧ a = b ∧ r = t := by
  rcases List.append_eq_append_iff.1 h with ⟨z, rfl, hz⟩ | ⟨z, rfl, hz⟩
  · cases z with
    | nil => simpa using hz
    | cons e z =>
      obtain ⟨rfl, -⟩ := List.cons.inj hz
      exact absurd ha (hy _ (by simp))
  · cases z with
    | nil => simpa [eq_comm] using hz
    | cons e z =>
      obtain ⟨rfl, -⟩ := List.cons.inj hz
      exact absurd hb (hx _ (by simp))

theorem append_cons_inj_of_not_mem (hx : c ∉ x) (hy : c ∉ y) (h : x ++ c :: r = y ++ c :: t) :
    x = y ∧ r = t := by
  obtain ⟨rfl, -, rfl⟩ := append_cons_inj_of_first (p := (· = c))
    (fun z hz => ne_of_mem_of_not_mem hz hx) rfl (fun z hz => ne_of_mem_of_not_mem hz hy) rfl h
  exact ⟨rfl, rfl⟩

/-- Rows can be told apart by the first character of what is between them. -/
theorem intercalate_injective (hne : ls ≠ []) (hne' : ls' ≠ []) (hc : ∀ l ∈ ls, c ∉ l)
    (hc' : ∀ l ∈ ls', c ∉ l) (h : (c :: s).intercalate ls = (c :: s).intercalate ls') :
    ls = ls' := by
  induction ls generalizing ls' with
  | nil => exact absurd rfl hne
  | cons x ls ih =>
    obtain ⟨hx, hls⟩ := List.forall_mem_cons.1 hc
    cases ls' with
    | nil => exact absurd rfl hne'
    | cons y ls' =>
      obtain ⟨hy, hls'⟩ := List.forall_mem_cons.1 hc'
      rcases ls with _ | ⟨x', ls⟩ <;> rcases ls' with _ | ⟨y', ls'⟩
      · simpa using h
      · simp only [List.intercalate_singleton, List.intercalate_cons_cons] at h
        exact absurd (by simp [h]) hx
      · simp only [List.intercalate_singleton, List.intercalate_cons_cons] at h
        exact absurd (by simp [← h]) hy
      · simp only [List.intercalate_cons_cons, List.append_assoc, List.cons_append] at h
        obtain ⟨rfl, hrest⟩ := append_cons_inj_of_not_mem hx hy h
        rw [ih (by simp) (by simp) hls hls' (List.append_cancel_left hrest)]

theorem mem_of_mem_intercalate {a : α} (h : a ∈ s.intercalate ls) : a ∈ s ∨ ∃ l ∈ ls, a ∈ l := by
  induction ls with
  | nil => simp at h
  | cons l ls ih =>
    cases ls with
    | nil => exact .inr ⟨l, by simp, by simpa using h⟩
    | cons l' ls =>
      simp only [List.intercalate_cons_cons, List.mem_append] at h
      rcases h with (h | h) | h
      · exact .inr ⟨l, by simp, h⟩
      · exact .inl h
      · exact (ih h).imp_right fun ⟨x, hx, hmem⟩ => ⟨x, List.mem_cons_of_mem _ hx, hmem⟩

theorem intercalate_cons (sep x : List α) (xs : List (List α)) :
    sep.intercalate (x :: xs) = x ++ xs.flatMap (sep ++ ·) := by
  induction xs generalizing x with
  | nil => simp
  | cons y ys ih => rw [List.intercalate_cons_cons, ih, List.flatMap_cons, List.append_assoc, List.append_assoc]

theorem mem_intercalate {a : α} {l : List α} (hl : l ∈ ls) (ha : a ∈ l) : a ∈ s.intercalate ls := by
  obtain ⟨x, xs, rfl⟩ := List.exists_cons_of_ne_nil (List.ne_nil_of_mem hl)
  rw [intercalate_cons, List.mem_append, List.mem_flatMap]
  rcases List.mem_cons.1 hl with rfl | hl
  · exact .inl ha
  · exact .inr ⟨l, hl, List.mem_append_right s ha⟩

theorem suffix_intercalate (sep : List α) {l : List α} (h : [l] <:+ ls) :
    l <:+ sep.intercalate ls := by
  obtain ⟨init, rfl⟩ := h
  induction init with
  | nil => simp
  | cons x init ih =>
    rw [List.cons_append, List.intercalate_cons_of_ne_nil (by simp)]
    exact ih.trans (List.suffix_append _ _)

theorem map_injective_of_mem {f : α → β} {P : α → Prop} {x y : List α} (hx : ∀ a ∈ x, P a)
    (hy : ∀ a ∈ y, P a) (hf : ∀ a b, P a → P b → f a = f b → a = b) (h : x.map f = y.map f) :
    x = y := by
  induction x generalizing y with
  | nil => simpa [eq_comm] using h
  | cons a x ih =>
    cases y with
    | nil => simp at h
    | cons b y =>
      simp only [List.map_cons, List.cons.injEq] at h
      obtain ⟨ha, hx⟩ := List.forall_mem_cons.1 hx
      obtain ⟨hb, hy⟩ := List.forall_mem_cons.1 hy
      rw [hf a b ha hb h.1, ih hx hy h.2]

/-- Blocks of lines with an empty line between them are lines. -/
theorem intercalate_blocks {blocks : List (List String)} (h : ∀ b ∈ blocks, b ≠ []) :
    "\n\n".intercalate (blocks.map "\n".intercalate)
      = "\n".intercalate ([""].intercalate blocks) := by
  induction blocks with
  | nil => rfl
  | cons b bs ih =>
    obtain ⟨hb, hbs⟩ := List.forall_mem_cons.1 h
    cases bs with
    | nil => simp
    | cons b' bs =>
      have hb' : b' ≠ [] := hbs b' List.mem_cons_self
      have hrest : [""].intercalate (b' :: bs) ≠ [] := by
        cases bs <;> simp [hb']
      rw [List.map_cons, List.map_cons, String.intercalate_cons_cons, ← List.map_cons, ih hbs,
        List.intercalate_cons_cons, List.append_assoc,
        String.intercalate_append_of_ne_nil hb (by simp), List.singleton_append,
        String.intercalate_cons_of_ne_nil hrest]
      have hbreak : "\n\n" = "\n" ++ ("" ++ "\n") := rfl
      simp only [hbreak, String.append_assoc]

end TableRoster.Text
