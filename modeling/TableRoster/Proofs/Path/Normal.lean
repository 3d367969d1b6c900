import Mathlib.Data.List.Basic
import TableRoster.Path

/-! # Normal forms of paths

The names of a path in normal form have no `..`. The names between two places lead from the first to the
second, and the last of them is the last one of the second. -/

namespace TableRoster.Path

variable {name : String} {names here there done parts : List String}

/-- One name further: `..` takes the last name back. -/
def enter (done : List String) (name : String) : List String :=
  if name = ".." then done.dropLast else done ++ [name]

theorem normalParts_eq (parts : List String) : normalParts parts = parts.foldl enter [] :=
  rfl

theorem foldl_enter (h : ".." ∉ names) : names.foldl enter done = done ++ names := by
  induction names generalizing done with
  | nil => simp
  | cons n names ih =>
    simp only [List.mem_cons, not_or] at h
    rw [List.foldl_cons, enter, if_neg (Ne.symm h.1), ih h.2, List.append_assoc, List.singleton_append]

theorem foldl_enter_back (h : names.length = k) :
    (List.replicate k "..").foldl enter (done ++ names) = done := by
  induction k generalizing names with
  | zero =>
    rw [List.length_eq_zero_iff] at h
    simp [h]
  | succ k ih =>
    have hne : names ≠ [] := List.ne_nil_of_length_eq_add_one h
    rw [List.replicate_succ, List.foldl_cons, enter, if_pos rfl,
      List.dropLast_append_of_ne_nil hne, ih (by simp [h])]

theorem mem_foldl_enter (h : name ∈ parts.foldl enter done) :
    name ∈ done ∨ name ∈ parts ∧ name ≠ ".." := by
  induction parts generalizing done with
  | nil => exact .inl h
  | cons n parts ih =>
    rcases ih h with h | ⟨h, hne⟩
    · unfold enter at h
      split at h
      · exact .inl (List.dropLast_subset _ h)
      · rename_i hn
        rcases List.mem_append.1 h with h | h
        · exact .inl h
        · obtain rfl := List.mem_singleton.1 h
          exact .inr ⟨List.mem_cons_self, hn⟩
    · exact .inr ⟨List.mem_cons_of_mem _ h, hne⟩

theorem mem_normalParts (h : name ∈ normalParts parts) : name ∈ parts ∧ name ≠ ".." := by
  simpa using mem_foldl_enter h

theorem up_not_mem_normalParts (parts : List String) : ".." ∉ normalParts parts :=
  fun h => (mem_normalParts h).2 rfl

/-- The names that a path starts with may be put in normal form first. -/
theorem normalParts_append (parts rest : List String) :
    normalParts (parts ++ rest) = rest.foldl enter (normalParts parts) := by
  rw [normalParts_eq, List.foldl_append, normalParts_eq]

/-! ## Between two places -/

/-- The names between two places lead from the one to the other. -/
theorem foldl_enter_between (hhere : ".." ∉ here) (hthere : ".." ∉ there) :
    (between here there).foldl enter (done ++ here) = done ++ there := by
  fun_induction between here there generalizing done with
  | case1 hs n ts ih =>
    simp only [List.mem_cons, not_or] at hhere hthere
    have hrest : (between hs ts).foldl enter (done ++ [n] ++ hs) = done ++ [n] ++ ts :=
      ih hhere.2 hthere.2
    simpa using hrest
  | case2 h hs t ts =>
    rw [List.foldl_append, foldl_enter_back (by simp), foldl_enter hthere]
  | case3 ts =>
    rw [List.append_nil, foldl_enter hthere]
  | case4 hs =>
    rw [foldl_enter_back rfl, List.append_nil]

theorem mem_between (h : name ∈ between here there) : name = ".." ∨ name ∈ there := by
  fun_induction between here there with
  | case1 hs n ts ih =>
    exact (ih ‹_›).imp_right (List.mem_cons_of_mem _)
  | case2 h hs t ts =>
    rcases List.mem_append.1 ‹_› with h | h
    · exact .inl (List.eq_of_mem_replicate h)
    · exact .inr h
  | case3 ts => exact .inr h
  | case4 hs => exact .inl (List.eq_of_mem_replicate h)

/-- Unless it is on the way up, a place is reached by its last name. -/
theorem getLast?_between (h : ¬ there <+: here) :
    (between here there).getLast? = there.getLast? ∧ between here there ≠ [] := by
  fun_induction between here there with
  | case1 hs n ts ih =>
    obtain ⟨hlast, hne⟩ := ih fun hprefix => h ((List.prefix_cons_inj n).2 hprefix)
    refine ⟨?_, hne⟩
    cases ts with
    | nil => exact absurd ((List.prefix_cons_inj n).2 List.nil_prefix) h
    | cons t ts => rw [hlast, List.getLast?_cons_cons]
  | case2 n hs t ts =>
    exact ⟨List.getLast?_append_of_ne_nil _ (by simp), by simp⟩
  | case3 ts =>
    refine ⟨rfl, ?_⟩
    rintro rfl
    exact h List.nil_prefix
  | case4 hs => exact absurd List.nil_prefix h

end TableRoster.Path
