import TableRoster.Proofs.Drift.Unified

/-! # Scripts of equal texts

Where both texts have the same lines, the longest stretch that is found starts at the same place on
both sides, and grows until it is the whole text. So a script changes nothing exactly if there is
nothing to change. -/

namespace TableRoster.Drift

variable {ls : List String} {i j : Nat} {best : Stretch}

/-! ## Places of lines -/

theorem mem_placesOf {line : String} (h : j ∈ placesOf ls line) : ls[j]? = some line := by
  unfold placesOf at h
  dsimp only at h
  split at h
  · cases h
  · obtain ⟨p, hp, rfl⟩ := List.mem_map.1 h
    obtain ⟨hp, he⟩ := List.mem_filter.1 hp
    rw [List.mem_zipIdx_iff_getElem?.1 hp, of_decide_eq_true he]

/-- Of a line that is not too common, all places are told. -/
theorem mem_placesOf_of_ne_nil {line : String} (h : placesOf ls line ≠ []) (hj : ls[j]? = some line) :
    j ∈ placesOf ls line := by
  unfold placesOf at h ⊢
  dsimp only at h ⊢
  split
  · rename_i hcommon
    exact absurd (if_pos hcommon) h
  · exact List.mem_map.2 ⟨(line, j), List.mem_filter.2 ⟨List.mem_zipIdx_iff_getElem?.2 hj, by simp⟩, rfl⟩

theorem placesOf_ordered (ls : List String) (line : String) :
    (placesOf ls line).Pairwise (· < ·) := by
  unfold placesOf
  dsimp only
  split
  · exact .nil
  · have hall : (ls.zipIdx.map (·.2)).Pairwise (· < ·) := by
      rw [List.zipIdx_map_snd]
      exact List.pairwise_lt_range'
    exact hall.sublist (List.filter_sublist.map _)

/-- The places of the line at a place. -/
def alikeAt (ls : List String) (i : Nat) : List Nat :=
  (ls[i]?.map (placesOf ls)).getD []

/-- A place that is like another is like itself, and so is the other. -/
theorem self_mem_alikeAt (h : j ∈ alikeAt ls i) : i ∈ alikeAt ls i ∧ j ∈ alikeAt ls j := by
  unfold alikeAt at h
  cases hi : ls[i]? with
  | none => rw [hi] at h; cases h
  | some line =>
    rw [hi] at h
    have hj : j ∈ placesOf ls line := h
    have hne : placesOf ls line ≠ [] := List.ne_nil_of_mem hj
    constructor
    · rw [alikeAt, hi]
      exact mem_placesOf_of_ne_nil hne hi
    · rw [alikeAt, mem_placesOf hj]
      exact hj

theorem lt_length_of_mem_alikeAt (h : j ∈ alikeAt ls i) : j < ls.length := by
  have hj := (self_mem_alikeAt h).2
  unfold alikeAt at hj
  cases hl : ls[j]? with
  | none => rw [hl] at hj; cases hj
  | some line => exact (List.getElem?_eq_some_iff.1 hl).1

/-! ## Stretches that end at two places -/

/-- The length of the stretch of lines, none of them too common, that ends at two places. -/
def stretchTo (ls : List String) : Nat → Nat → Nat
  | 0, j => if j ∈ alikeAt ls 0 then 1 else 0
  | i + 1, 0 => if 0 ∈ alikeAt ls (i + 1) then 1 else 0
  | i + 1, j + 1 => if j + 1 ∈ alikeAt ls (i + 1) then stretchTo ls i j + 1 else 0

theorem stretchTo_of_not_mem (h : j ∉ alikeAt ls i) : stretchTo ls i j = 0 := by
  fun_cases stretchTo ls i j <;> simp_all

theorem stretchTo_pos (h : i ∈ alikeAt ls i) : 0 < stretchTo ls i i := by
  cases i <;> simp [stretchTo, h]

theorem stretchTo_le (ls : List String) (i j : Nat) : stretchTo ls i j ≤ i + 1 := by
  fun_induction stretchTo ls i j <;> omega

/-- No stretch that ends at a place is longer than the one of the place with itself. -/
theorem stretchTo_le_self (ls : List String) (i j : Nat) : stretchTo ls i j ≤ stretchTo ls i i := by
  induction i generalizing j with
  | zero =>
    by_cases h : j ∈ alikeAt ls 0
    · simp [stretchTo, h, (self_mem_alikeAt h).1]
    · simp [stretchTo_of_not_mem h]
  | succ i ih =>
    by_cases h : j ∈ alikeAt ls (i + 1)
    · cases j with
      | zero => simp [stretchTo, h, (self_mem_alikeAt h).1]
      | succ j => simpa [stretchTo, h, (self_mem_alikeAt h).1] using ih j
    · simp [stretchTo_of_not_mem h]

theorem stretchTo_le_other (ls : List String) (i j : Nat) : stretchTo ls i j ≤ stretchTo ls j j := by
  induction i generalizing j with
  | zero =>
    by_cases h : j ∈ alikeAt ls 0
    · simpa [stretchTo, h] using Nat.succ_le_of_lt (stretchTo_pos (self_mem_alikeAt h).2)
    · simp [stretchTo_of_not_mem h]
  | succ i ih =>
    by_cases h : j ∈ alikeAt ls (i + 1)
    · cases j with
      | zero => simp [stretchTo, h, (self_mem_alikeAt h).2]
      | succ j => simpa [stretchTo, h, (self_mem_alikeAt h).2] using ih j
    · simp [stretchTo_of_not_mem h]

/-! ## The longest stretch -/

/-- What is known of the stretches that end before a place. -/
def endsBefore (ls : List String) : Nat → List (Nat × Nat)
  | 0 => []
  | i + 1 => (alikeAt ls i).map fun j => (j, stretchTo ls i j)

theorem find?_endsBefore (ls : List String) (i j : Nat) :
    (((endsBefore ls (i + 1)).find? (·.1 = j)).map (·.2)).getD 0 = stretchTo ls i j := by
  rw [endsBefore, List.find?_map, Option.map_map]
  cases h : (alikeAt ls i).find? ((fun e : Nat × Nat => decide (e.1 = j)) ∘ fun k => (k, stretchTo ls i k)) with
  | none =>
    have hj : j ∉ alikeAt ls i := fun hm => by simpa using List.find?_eq_none.1 h j hm
    rw [stretchTo_of_not_mem hj]
    rfl
  | some k =>
    obtain rfl : k = j := by simpa using List.find?_some h
    rfl

theorem extend_endsBefore (ls : List String) (i : Nat) :
    extend (endsBefore ls i) (alikeAt ls i) = endsBefore ls (i + 1) := by
  refine List.map_congr_left fun j hj => ?_
  cases i with
  | zero => simp [endsBefore, stretchTo, hj]
  | succ i =>
    rw [find?_endsBefore]
    cases j <;> simp [stretchTo, hj]

theorem better_cons (i j n : Nat) (best : Stretch) (ends : List (Nat × Nat)) :
    better i best ((j, n) :: ends)
      = better i (if best.length < n then ⟨i + 1 - n, j + 1 - n, n⟩ else best) ends := rfl

theorem better_append (i : Nat) (best : Stretch) (ends ends' : List (Nat × Nat)) :
    better i best (ends ++ ends') = better i (better i best ends) ends' :=
  List.foldl_append

theorem better_of_le {ends : List (Nat × Nat)} (h : ∀ e ∈ ends, e.2 ≤ best.length) :
    better i best ends = best := by
  induction ends with
  | nil => rfl
  | cons e ends ih =>
    obtain ⟨he, h⟩ := List.forall_mem_cons.1 h
    rw [better_cons, if_neg (Nat.not_lt.2 he)]
    exact ih h

/-- A stretch that starts at the same place on both sides, and is as long as any that ends before a
place. -/
structure IsBest (ls : List String) (i : Nat) (best : Stretch) : Prop where
  same : best.old = best.new
  inside : best.old + best.length ≤ i
  longest : ∀ k < i, stretchTo ls k k ≤ best.length

/-- A place is passed with a stretch that is as long as the one that ends there. -/
theorem IsBest.succ (h : IsBest ls i best) (hi : stretchTo ls i i ≤ best.length) :
    IsBest ls (i + 1) best where
  same := h.same
  inside := Nat.le_succ_of_le h.inside
  longest k hk := by
    rcases Nat.lt_succ_iff_lt_or_eq.1 hk with hk | rfl
    · exact h.longest k hk
    · exact hi

/-- Of the stretches that end at a place, the one of the place with itself is met before any that is as
long. -/
theorem IsBest.better (h : IsBest ls i best) :
    IsBest ls (i + 1) (better i best (endsBefore ls (i + 1))) := by
  by_cases hi : i ∈ alikeAt ls i
  · obtain ⟨before, behind, hsplit⟩ := List.append_of_mem hi
    have hlt : ∀ j ∈ before, j < i := by
      intro j hj
      have hordered : (alikeAt ls i).Pairwise (· < ·) := by
        unfold alikeAt
        cases ls[i]? with
        | none => exact .nil
        | some line => exact placesOf_ordered ls line
      rw [hsplit] at hordered
      exact (List.pairwise_append.1 hordered).2.2 j hj i List.mem_cons_self
    have hbefore : ∀ e ∈ before.map fun j => (j, stretchTo ls i j), e.2 ≤ best.length :=
      List.forall_mem_map.2 fun j hj => Nat.le_trans (stretchTo_le_other ls i j) (h.longest j (hlt j hj))
    rw [endsBefore, hsplit, List.map_append, List.map_cons, better_append, better_of_le hbefore,
      better_cons]
    have hmet : IsBest ls (i + 1) (if best.length < stretchTo ls i i then
        ⟨i + 1 - stretchTo ls i i, i + 1 - stretchTo ls i i, stretchTo ls i i⟩ else best) := by
      split
      · rename_i hlonger
        refine ⟨rfl, Nat.le_of_eq (Nat.sub_add_cancel (stretchTo_le ls i i)), fun k hk => ?_⟩
        rcases Nat.lt_succ_iff_lt_or_eq.1 hk with hk | rfl
        · exact Nat.le_trans (h.longest k hk) (Nat.le_of_lt hlonger)
        · exact Nat.le_refl _
      · rename_i hshort
        exact h.succ (Nat.not_lt.1 hshort)
    rwa [better_of_le]
    exact List.forall_mem_map.2 fun j _ =>
      Nat.le_trans (stretchTo_le_self ls i j) (hmet.longest i (Nat.lt_succ_self i))
  · have hnone : alikeAt ls i = [] := List.eq_nil_iff_forall_not_mem.2 fun j hj => hi (self_mem_alikeAt hj).1
    rw [endsBefore, hnone]
    exact h.succ (by rw [stretchTo_of_not_mem hi]; exact Nat.zero_le _)

/-- The longest stretch of a text with itself starts at the same place on both sides. -/
theorem isBest_longest {inside : Nat → Bool} (hin : ∀ j < ls.length, inside j = true)
    (front : List String) {back : List String} (hls : ls = front ++ back) (h : IsBest ls front.length best) :
    IsBest ls ls.length (longest inside front.length (endsBefore ls front.length) best
      (back.map (placesOf ls))) := by
  induction back generalizing front best with
  | nil =>
    rw [List.append_nil] at hls
    exact hls ▸ h
  | cons line back ih =>
    have hplaces : alikeAt ls front.length = placesOf ls line := by
      simp [alikeAt, hls]
    have hinside : (placesOf ls line).filter inside = placesOf ls line := by
      refine List.filter_eq_self.2 fun j hj => hin j (lt_length_of_mem_alikeAt (i := front.length) ?_)
      rwa [hplaces]
    have hnext := ih (front ++ [line]) (by simp [hls]) (by simpa using h.better)
    rw [List.map_cons, longest, hinside, ← hplaces, extend_endsBefore]
    simpa using hnext

/-! ## The whole text -/

/-- Both sides of a text with itself, and the window of all its lines. -/
def selfTexts (ls : List String) : Texts :=
  ⟨ls.toArray, ls.toArray, (ls.map (placesOf ls)).toArray⟩

def wholeWindow (ls : List String) : Window :=
  ⟨0, ls.length, 0, ls.length⟩

theorem same_selfTexts (hi : i < ls.length) : (selfTexts ls).same i i = true := by
  simp [selfTexts, Texts.same, hi]

theorem growBack_selfTexts {fuel k l : Nat} (hk : k ≤ fuel) (hl : k + l ≤ ls.length) :
    growBack (selfTexts ls) (wholeWindow ls) fuel ⟨k, k, l⟩ = ⟨0, 0, k + l⟩ := by
  induction fuel generalizing k l with
  | zero =>
    obtain rfl := Nat.le_zero.1 hk
    simp [growBack]
  | succ fuel ih =>
    cases k with
    | zero => simp [growBack, wholeWindow]
    | succ k =>
      rw [growBack, if_pos ⟨Nat.succ_pos k, Nat.succ_pos k, same_selfTexts (by simp; omega)⟩]
      refine (ih (k := k) (l := l + 1) (by omega) (by omega)).trans ?_
      rw [show k + (l + 1) = k + 1 + l by omega]

theorem growOn_selfTexts {fuel l : Nat} (hl : l ≤ ls.length) (hfuel : ls.length ≤ l + fuel) :
    growOn (selfTexts ls) (wholeWindow ls) fuel ⟨0, 0, l⟩ = ⟨0, 0, ls.length⟩ := by
  induction fuel generalizing l with
  | zero =>
    obtain rfl : l = ls.length := by omega
    rfl
  | succ fuel ih =>
    rw [growOn]
    split
    · rename_i h
      have hlt : l < ls.length := by simpa [wholeWindow] using h.1
      exact ih (l := l + 1) hlt (by omega)
    · rename_i h
      obtain rfl | hlt := Nat.eq_or_lt_of_le hl
      · rfl
      · have hsame := same_selfTexts hlt
        simp [wholeWindow, hlt, hsame] at h

/-- The stretch that is found in a text and itself is the whole text. -/
theorem stretch_selfTexts (ls : List String) :
    (selfTexts ls).stretch (wholeWindow ls) = ⟨0, 0, ls.length⟩ := by
  have hrows : ((selfTexts ls).places.toList.drop 0).take (ls.length - 0) = ls.map (placesOf ls) := by
    simp [selfTexts]
  have hsize : (selfTexts ls).old.size = ls.length := List.size_toArray
  obtain ⟨best, hfound, hbest⟩ : ∃ best, longest (fun j => 0 ≤ j && j < ls.length) 0 [] ⟨0, 0, 0⟩
      (ls.map (placesOf ls)) = best ∧ IsBest ls ls.length best :=
    ⟨_, rfl, isBest_longest (by simp) [] rfl ⟨rfl, Nat.le_refl _, nofun⟩⟩
  obtain ⟨k, k', l⟩ := best
  obtain rfl : k = k' := hbest.same
  have hk : k + l ≤ ls.length := hbest.inside
  show growOn _ _ (selfTexts ls).old.size (growBack _ _ (selfTexts ls).old.size (longest _ _ _ _
    (((selfTexts ls).places.toList.drop 0).take (ls.length - 0)))) = _
  rw [hrows, hsize]
  refine (congrArg (fun s => growOn _ _ _ (growBack _ _ _ s)) hfound).trans ?_
  rw [growBack_selfTexts (Nat.le_trans (Nat.le_add_right k l) hk) hk]
  exact growOn_selfTexts hk (Nat.le_add_left _ _)

/-- What turns nothing into nothing does nothing. -/
theorem Turns.eq_nil {es : List Edit} (h : Turns es [] []) : es = [] := by
  obtain ⟨hold, hnew⟩ := h
  cases es with
  | nil => rfl
  | cons e es => cases e <;> simp [oldLines, newLines] at hold hnew

/-- The script of a text and itself keeps all lines. -/
theorem script_self (ls : List String) : script ls ls = ls.map .keep := by
  have hempty : ∀ fuel k, (selfTexts ls).scriptOf fuel ⟨k, k, k, k⟩ = [] := by
    intro fuel k
    have h := (selfTexts ls).scriptOf_turns fuel (w := ⟨k, k, k, k⟩) (Nat.le_refl k) (Nat.le_refl k)
    exact Turns.eq_nil (by simpa [linesFrom] using h)
  have hkept : linesFrom ls.toArray 0 (0 + ls.length) = ls := by simp [linesFrom]
  obtain rfl | hne := eq_or_ne ls []
  · exact Turns.eq_nil (script_turns [] [])
  · show (selfTexts ls).scriptOf (ls.length + 1) (wholeWindow ls) = _
    have hlength : 0 + ls.length ≤ ls.length := Nat.le_of_eq (Nat.zero_add _)
    rw [Texts.scriptOf, stretch_selfTexts]
    refine (if_pos ⟨List.length_pos_iff.2 hne, Nat.le_refl _, hlength, Nat.le_refl _, hlength, rfl⟩).trans ?_
    show (selfTexts ls).scriptOf _ ⟨0, 0, 0, 0⟩ ++ (linesFrom ls.toArray 0 (0 + ls.length)).map .keep
      ++ (selfTexts ls).scriptOf _ ⟨0 + ls.length, ls.length, 0 + ls.length, ls.length⟩ = _
    rw [hkept, Nat.zero_add, hempty, hempty, List.nil_append, List.append_nil]

/-- A script that changes nothing leads to what it started from. -/
theorem Turns.eq_of_changes {es : List Edit} {old new : List String} (h : Turns es old new)
    (hnone : changes es = []) : old = new := by
  obtain ⟨rfl, rfl⟩ := h
  induction es with
  | nil => rfl
  | cons e es ih =>
    cases e with
    | keep l => exact congrArg (l :: ·) (ih hnone)
    | remove | add => cases hnone

/-- A script changes something exactly where the lines differ. -/
theorem changes_script_eq_nil_iff {old new : List String} : changes (script old new) = [] ↔ old = new := by
  refine ⟨(script_turns old new).eq_of_changes, ?_⟩
  rintro rfl
  rw [script_self, changes, List.filter_map]
  simp [Function.comp_def, Edit.isChange]

end TableRoster.Drift
