import Mathlib.Data.List.Nodup
import TableRoster.Disk.Edit
import TableRoster.Disk.RealPath

/-! # File trees

A disk is a tree if every place has one entry, in a folder, and the working folder is there. -/

namespace TableRoster.Disk

/-- A name that a file can have. -/
def IsName (name : String) : Prop :=
  name ≠ "." ∧ name ≠ ".." ∧ isImpossible name = false

instance (name : String) : Decidable (IsName name) :=
  inferInstanceAs (Decidable (_ ∧ _ ∧ _))

/-- A disk whose entries make a tree of folders. -/
structure IsTree (d : Disk) : Prop where
  nodup : (d.nodes.map (·.1)).Nodup
  inFolder : ∀ e ∈ d.nodes, e.1 ≠ [] ∧ d.node? e.1.dropLast = some .folder
  named : ∀ e ∈ d.nodes, ∀ name ∈ e.1, IsName name
  here : d.node? d.here = some .folder

instance (d : Disk) : Decidable (IsTree d) :=
  decidable_of_iff
    ((d.nodes.map (·.1)).Nodup ∧ (∀ e ∈ d.nodes, e.1 ≠ [] ∧ d.node? e.1.dropLast = some .folder)
      ∧ (∀ e ∈ d.nodes, ∀ name ∈ e.1, IsName name) ∧ d.node? d.here = some .folder)
    ⟨fun ⟨a, b, c, e⟩ => ⟨a, b, c, e⟩, fun ⟨a, b, c, e⟩ => ⟨a, b, c, e⟩⟩

variable {d : Disk} {p q : Place} {name : String} {n : Node}

theorem mem_nodes_of_node? (hp : p ≠ []) (h : d.node? p = some n) : (p, n) ∈ d.nodes := by
  simp only [node?, hp, ↓reduceIte, Option.map_eq_some_iff] at h
  obtain ⟨e, he, rfl⟩ := h
  obtain rfl : e.1 = p := by simpa using List.find?_some he
  exact List.mem_of_find?_eq_some he

theorem node?_eq_none_iff (hp : p ≠ []) : d.node? p = none ↔ ∀ e ∈ d.nodes, e.1 ≠ p := by
  simp [node?, hp]

theorem node?_put (hp : p ≠ []) : (d.put p n).node? q = if q = p then some n else d.node? q := by
  by_cases h : q = p
  · rw [if_pos h, h, node?_put_self d n hp]
  · rw [if_neg h, node?_put_of_ne d n h]

theorem link?_eq_some_iff {t : String} : d.link? p = some t ↔ d.node? p = some (.link t) := by
  unfold link?
  split <;> simp_all

theorem link?_eq_none_iff : d.link? p = none ↔ ∀ t, d.node? p ≠ some (.link t) := by
  unfold link?
  split <;> simp_all

theorem length_le_depth (h : d.node? p ≠ none) : p.length ≤ d.depth := by
  have le_fold : ∀ (l : List Nat) (a x : Nat), x ≤ a ∨ x ∈ l → x ≤ l.foldl max a := by
    intro l
    induction l with
    | nil => simp
    | cons y l ih =>
      intro a x hx
      refine ih (max a y) x ?_
      obtain hx | hx := hx
      · exact .inl (Nat.le_trans hx (Nat.le_max_left a y))
      · obtain rfl | hx := List.mem_cons.1 hx
        · exact .inl (Nat.le_max_right a x)
        · exact .inr hx
  by_cases hp : p = []
  · simp [hp]
  · obtain ⟨n, hn⟩ := Option.ne_none_iff_exists'.1 h
    exact le_fold _ _ _ (.inr (List.mem_map.2 ⟨_, mem_nodes_of_node? hp hn, rfl⟩))

namespace IsTree

/-! ## Entries -/

theorem node?_eq_some_iff (h : IsTree d) (hp : p ≠ []) : d.node? p = some n ↔ (p, n) ∈ d.nodes := by
  refine ⟨mem_nodes_of_node? hp, fun hm => ?_⟩
  cases hq : d.node? p with
  | none => exact absurd rfl ((node?_eq_none_iff hp).1 hq _ hm)
  | some m =>
    have hm' := mem_nodes_of_node? hp hq
    have := List.inj_on_of_nodup_map h.nodup hm hm' rfl
    simp_all

/-- What is there is in a folder. -/
theorem folder_dropLast (h : IsTree d) (hp : d.node? p = some n) :
    d.node? p.dropLast = some .folder := by
  by_cases he : p = []
  · simp [he]
  · exact (h.inFolder _ (mem_nodes_of_node? he hp)).2

theorem folder_of_snoc (h : IsTree d) (hp : d.node? (p ++ [name]) = some n) :
    d.node? p = some .folder := by
  simpa using h.folder_dropLast hp

theorem isName_of_snoc (h : IsTree d) (hp : d.node? (p ++ [name]) = some n) : IsName name :=
  h.named _ (mem_nodes_of_node? (by simp) hp) _ (by simp)

/-! ## The names in a folder -/

theorem mem_namesIn (h : IsTree d) : name ∈ d.namesIn p ↔ ∃ n, d.node? (p ++ [name]) = some n := by
  have hs : p ++ [name] ≠ [] := by simp
  simp only [namesIn, List.mem_filterMap, h.node?_eq_some_iff hs]
  constructor
  · rintro ⟨⟨q, n⟩, hm, hq⟩
    split at hq
    · rename_i hd
      obtain ⟨ys, hys⟩ := List.getLast?_eq_some_iff.1 hq
      simp only at hys hd
      subst hys
      simp only [List.dropLast_concat] at hd
      exact ⟨n, hd ▸ hm⟩
    · cases hq
  · rintro ⟨n, hm⟩
    exact ⟨_, hm, by simp⟩

theorem isName_of_mem (h : IsTree d) (hm : name ∈ d.namesIn p) : IsName name := by
  obtain ⟨n, hn⟩ := h.mem_namesIn.1 hm
  exact h.isName_of_snoc hn

theorem node?_of_not_mem (h : IsTree d) (hm : name ∉ d.namesIn p) : d.node? (p ++ [name]) = none := by
  by_contra hn
  exact hm (h.mem_namesIn.2 (Option.ne_none_iff_exists'.1 hn))

theorem namesIn_nodup (h : IsTree d) (p : Place) : (d.namesIn p).Nodup := by
  have he : d.namesIn p = (d.nodes.map (·.1)).filterMap
      fun q => if q.dropLast = p then q.getLast? else none := by
    simp [namesIn, List.filterMap_map]
  rw [he]
  refine h.nodup.filterMap fun q r name hq hr => ?_
  simp only [Option.mem_def, Option.ite_none_right_eq_some, List.getLast?_eq_some_iff] at hq hr
  obtain ⟨hq, ys, rfl⟩ := hq
  obtain ⟨hr, zs, rfl⟩ := hr
  simp_all

/-! ## Changes that keep a tree -/

/-- A new node, in a folder. A folder is not taken away by it. -/
theorem put (h : IsTree d) (hp : d.node? p = some .folder) (hname : IsName name)
    (hk : n = .folder ∨ d.node? (p ++ [name]) ≠ some .folder) : IsTree (d.put (p ++ [name]) n) := by
  have hs : p ++ [name] ≠ [] := by simp
  have keeps : ∀ {q}, d.node? q = some .folder → (d.put (p ++ [name]) n).node? q = some .folder := by
    intro q hq
    rw [node?_put hs]
    split
    · rename_i he
      exact hk.elim (· ▸ rfl) (absurd (he ▸ hq) ·)
    · exact hq
  have namedIn : ∀ x ∈ p, IsName x := by
    by_cases he : p = []
    · simp [he]
    · exact h.named _ (mem_nodes_of_node? he hp)
  refine ⟨?_, ?_, ?_, keeps h.here⟩
  · simp only [Disk.put, List.map_cons, List.nodup_cons]
    exact ⟨by simp, h.nodup.sublist (List.filter_sublist.map _)⟩
  · intro e he
    simp only [Disk.put, List.mem_cons, List.mem_filter] at he
    obtain rfl | ⟨he, -⟩ := he
    · exact ⟨hs, keeps (by simpa using hp)⟩
    · exact ⟨(h.inFolder e he).1, keeps (h.inFolder e he).2⟩
  · intro e he x hx
    simp only [Disk.put, List.mem_cons, List.mem_filter] at he
    obtain rfl | ⟨he, -⟩ := he
    · obtain hx | hx := List.mem_append.1 hx
      · exact namedIn x hx
      · exact List.mem_singleton.1 hx ▸ hname
    · exact h.named e he x hx

end IsTree

end TableRoster.Disk
