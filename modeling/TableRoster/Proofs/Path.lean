import Mathlib.Data.List.Nodup
import Mathlib.Data.List.Perm.Basic
import Mathlib.Data.String.Basic
import TableRoster.Path

/-! # Paths in order -/

namespace TableRoster.Path

variable {p q r : Path} {ps qs : List Path}

theorem le_iff : p.le q = true ↔ p.sortKey ≤ q.sortKey := by
  simp [le, not_lt]

theorem le_total (h : p.le q = false) : q.le p = true := by
  rw [le_iff]
  have : ¬ p.sortKey ≤ q.sortKey := by
    rw [← le_iff, h]
    simp
  exact le_of_lt (not_le.1 this)

theorem le_trans (h : p.le q = true) (h' : q.le r = true) : p.le r = true :=
  le_iff.2 ((le_iff.1 h).trans (le_iff.1 h'))

theorem insert_perm (p : Path) (ps : List Path) : (insert p ps).Perm (p :: ps) := by
  induction ps with
  | nil => exact .refl _
  | cons q qs ih =>
    unfold insert
    split
    · exact .refl _
    · exact (ih.cons q).trans (.swap p q qs)

theorem sort_perm (ps : List Path) : (sort ps).Perm ps := by
  induction ps with
  | nil => exact .refl _
  | cons p ps ih => exact (insert_perm p (sort ps)).trans (ih.cons p)

theorem insert_pairwise (h : ps.Pairwise fun a b => a.le b = true) :
    (insert p ps).Pairwise fun a b => a.le b = true := by
  induction ps with
  | nil => simp [insert]
  | cons q qs ih =>
    obtain ⟨hq, hqs⟩ := List.pairwise_cons.1 h
    unfold insert
    split
    · rename_i hpq
      refine List.pairwise_cons.2 ⟨fun r hr => ?_, h⟩
      obtain rfl | hr := List.mem_cons.1 hr
      · exact hpq
      · exact le_trans hpq (hq r hr)
    · rename_i hpq
      refine List.pairwise_cons.2 ⟨fun r hr => ?_, ih hqs⟩
      obtain rfl | hr := List.mem_cons.1 ((insert_perm p qs).mem_iff.1 hr)
      · exact le_total (by simpa using hpq)
      · exact hq r hr

theorem sort_pairwise (ps : List Path) : (sort ps).Pairwise fun a b => a.le b = true := by
  induction ps with
  | nil => exact .nil
  | cons p ps ih => exact insert_pairwise ih

/-! ## Paths in one folder -/

theorem child_injective (folder : Path) : Function.Injective folder.child := by
  intro a b h
  simpa [child] using h

@[simp] theorem name_child (folder : Path) (a : String) : (folder.child a).name = a := by
  simp [name, child]

theorem le_antisymm_child {folder : Path} {a b : String} (h : (folder.child a).le (folder.child b) = true)
    (h' : (folder.child b).le (folder.child a) = true) : folder.child a = folder.child b := by
  have := le_antisymm (le_iff.1 h) (le_iff.1 h')
  unfold sortKey at this
  split at this <;> simp_all [child]

/-- The order of names in a folder does not matter. -/
theorem sort_children {folder : Path} {xs ys : List String} (h : xs.Perm ys) :
    sort (xs.map folder.child) = sort (ys.map folder.child) := by
  refine List.Perm.eq_of_pairwise ?_ (sort_pairwise _) (sort_pairwise _)
    ((sort_perm _).trans ((h.map _).trans (sort_perm _).symm))
  intro a b ha hb
  obtain ⟨x, -, rfl⟩ := List.mem_map.1 ((sort_perm _).mem_iff.1 ha)
  obtain ⟨y, -, rfl⟩ := List.mem_map.1 ((sort_perm _).mem_iff.1 hb)
  exact le_antisymm_child

theorem flatMap_filter {α β : Type} {l : List α} {f : α → List β} {p : α → Bool}
    (h : ∀ e ∈ l, p e = false → f e = []) : (l.filter p).flatMap f = l.flatMap f := by
  induction l with
  | nil => rfl
  | cons e l ih =>
    obtain ⟨he, hl⟩ := List.forall_mem_cons.1 h
    cases hp : p e with
    | true => simp only [List.filter_cons, hp, ↓reduceIte, List.flatMap_cons, ih hl]
    | false =>
      simp only [List.filter_cons, hp, Bool.false_eq_true, ↓reduceIte, List.flatMap_cons, he hp,
        List.nil_append, ih hl]

section

variable {folder : Path} {xs ys : List String} (hx : xs.Nodup) (hy : ys.Nodup) (hsub : xs ⊆ ys)

include hx hy hsub

/-- Names may be left out before or after the rest is put in order. -/
theorem filter_sort : (sort (ys.map folder.child)).filter (· ∈ xs.map folder.child)
    = sort (xs.map folder.child) := by
  refine List.Perm.eq_of_pairwise ?_
    ((sort_pairwise _).sublist List.filter_sublist) (sort_pairwise _) ?_
  · intro a b ha hb
    obtain ⟨x, -, rfl⟩ := List.mem_map.1 ((sort_perm _).mem_iff.1 (List.mem_filter.1 ha).1)
    obtain ⟨y, -, rfl⟩ := List.mem_map.1 ((sort_perm _).mem_iff.1 hb)
    exact le_antisymm_child
  · refine ((sort_perm _).filter _).trans (.trans ?_ (sort_perm _).symm)
    have hinj := child_injective folder
    rw [List.perm_ext_iff_of_nodup ((hy.map hinj).filter _) (hx.map hinj)]
    intro e
    simp only [List.mem_filter, decide_eq_true_eq, and_iff_right_iff_imp]
    intro he
    obtain ⟨x, hx, rfl⟩ := List.mem_map.1 he
    exact List.mem_map_of_mem (hsub hx)

theorem sort_flatMap {f : Path → List Path} (hf : ∀ y ∈ ys, y ∉ xs → f (folder.child y) = []) :
    (sort (ys.map folder.child)).flatMap f = (sort (xs.map folder.child)).flatMap f := by
  rw [← filter_sort hx hy hsub, flatMap_filter]
  intro e he hnot
  obtain ⟨y, hy, rfl⟩ := List.mem_map.1 ((sort_perm _).mem_iff.1 he)
  exact hf y hy fun h => of_decide_eq_false hnot (List.mem_map_of_mem h)

end

/-! ## Names in order -/

theorem append_singleton_lt {parts : List String} {a b : String} :
    parts ++ [a] < parts ++ [b] ↔ a < b := by
  induction parts with
  | nil => simp [List.cons_lt_cons_iff]
  | cons x parts ih => simp [ih]

theorem sortKey_child (folder : Path) (a : String) :
    (folder.child a).sortKey = folder.sortKey ++ [a] := by
  by_cases hr : folder.root = .none <;> simp [sortKey, child, hr]

theorem lt_of_le_child {folder : Path} {a b : String} (h : (folder.child a).le (folder.child b) = true)
    (hne : a ≠ b) : a < b := by
  have hle := le_iff.1 h
  rw [sortKey_child, sortKey_child] at hle
  exact append_singleton_lt.1 (lt_of_le_of_ne hle (by simpa using hne))

/-- The paths in a folder in order are the names in order. -/
theorem sort_children_eq {names : List String} (folder : Path) (h : names.Nodup) :
    ∃ sorted : List String, sorted.Perm names ∧ sorted.Pairwise (· < ·)
      ∧ sort (names.map folder.child) = sorted.map folder.child := by
  have hperm := sort_perm (names.map folder.child)
  have hback : ((sort (names.map folder.child)).map name).map folder.child
      = sort (names.map folder.child) := by
    rw [List.map_map]
    conv_rhs => rw [← List.map_id (sort _)]
    refine List.map_congr_left fun e he => ?_
    obtain ⟨x, -, rfl⟩ := List.mem_map.1 (hperm.mem_iff.1 he)
    simp
  have hnames : ((sort (names.map folder.child)).map name).Perm names := by
    have := hperm.map name
    simpa [List.map_map, Function.comp_def] using this
  refine ⟨_, hnames, ?_, hback.symm⟩
  have hnodup := hnames.nodup_iff.2 h
  have hle := sort_pairwise (names.map folder.child)
  rw [← hback, List.pairwise_map] at hle
  exact (hle.and hnodup).imp fun hab => lt_of_le_child hab.1 hab.2

end TableRoster.Path
