import Mathlib.Data.List.Induction
import TableRoster.Proofs.Disk.Tree

/-! # Where names lead

In a tree, a walk follows names to a place and counts the links it follows. The relation does without
a budget: names lead to one place at most, over one number of links, and a walk arrives there if its
budget allows that many. -/

namespace TableRoster.Disk

/-- Where one name leads from a folder, links aside. -/
def stepTo (p : Place) (name : String) : Place :=
  if name = "." then p else if name = ".." then p.dropLast else p ++ [name]

/-- Names lead from one place to another, over so many links. -/
inductive Leads (d : Disk) : Place → List String → Nat → Place → Prop
  | here {p} : Leads d p [] 0 p
  | step {p name n rest u q} : d.node? p = some .folder → d.node? (stepTo p name) = some n →
      (∀ t, n ≠ .link t) → Leads d (stepTo p name) rest u q → Leads d p (name :: rest) u q
  | link {p name t u m rest v q} : d.node? p = some .folder →
      d.node? (stepTo p name) = some (.link t) → Leads d (targetStart p t) (targetNames t) u m →
      Leads d m rest v q → Leads d p (name :: rest) (u + v + 1) q

variable {d : Disk} {p q r m : Place} {names more rest : List String} {name : String} {n : Node}
  {u v b : Nat} {follow : Bool}

@[simp] theorem stepTo_dot : stepTo p "." = p := rfl

@[simp] theorem stepTo_up : stepTo p ".." = p.dropLast := rfl

theorem IsName.stepTo (h : IsName name) : stepTo p name = p ++ [name] := by
  rw [Disk.stepTo, if_neg h.1, if_neg h.2.1]

namespace IsTree

theorem startOf (h : IsTree d) (path : Path) : d.node? (d.startOf path) = some .folder := by
  unfold Disk.startOf
  split
  · simp
  · exact h.here

/-- What stands above something that is there is a folder. -/
theorem folder_of_append (h : IsTree d) (hne : names ≠ []) (hp : d.node? (p ++ names) = some n) :
    d.node? p = some .folder := by
  induction names using List.reverseRecOn generalizing n with
  | nil => exact absurd rfl hne
  | append_singleton names name ih =>
    rw [← List.append_assoc] at hp
    have hf := h.folder_of_snoc hp
    by_cases hn : names = []
    · simpa [hn] using hf
    · exact ih hn hf

/-- A step leads to a folder, or it is the step to what a name has in a folder. -/
theorem stepTo_cases (h : IsTree d) (hp : d.node? p = some .folder) (name : String) :
    (¬ IsName name ∧ d.node? (stepTo p name) = some .folder)
      ∨ stepTo p name = p ++ [name] ∧ name ≠ "." ∧ name ≠ ".." := by
  by_cases hd : name = "."
  · subst hd
    exact .inl ⟨fun hn => hn.1 rfl, hp⟩
  · by_cases hu : name = ".."
    · subst hu
      exact .inl ⟨fun hn => hn.2.1 rfl, h.folder_dropLast hp⟩
    · exact .inr ⟨by rw [stepTo, if_neg hd, if_neg hu], hd, hu⟩

theorem stepTo_of_not_folder (h : IsTree d) (hp : d.node? p = some .folder)
    (hn : d.node? (stepTo p name) ≠ some .folder) :
    stepTo p name = p ++ [name] ∧ name ≠ "." ∧ name ≠ ".." :=
  (h.stepTo_cases hp name).resolve_left fun hf => hn hf.2

end IsTree

namespace Leads

/-! ## Rows of names -/

/-- What is reached step by step is there. -/
theorem node (h : Leads d p names u q) (hp : d.node? p ≠ none) (h0 : d.node? [] ≠ none) :
    d.node? q ≠ none := by
  induction h with
  | here => exact hp
  | step _ hn _ _ ih => exact ih (by simp [hn])
  | @link p name t u m rest v q hp' _ _ _ ih₁ ih₂ =>
    refine ih₂ (ih₁ ?_)
    unfold targetStart
    split
    · exact h0
    · simp [hp']

theorem append (h : Leads d p names u q) (h' : Leads d q more v r) :
    Leads d p (names ++ more) (u + v) r := by
  induction h with
  | here => simpa using h'
  | step hp hn hl _ ih => exact .step hp hn hl (ih h')
  | link hp hn ht _ _ ih =>
    have := Leads.link hp hn ht (ih h')
    rwa [show ∀ a b, a + (b + v) + 1 = a + b + 1 + v by omega] at this

/-- What leads somewhere leads there in two parts. -/
theorem split (h : Leads d p (names ++ more) u q) :
    ∃ v w m, Leads d p names v m ∧ Leads d m more w q ∧ u = v + w := by
  induction names generalizing p u with
  | nil => exact ⟨0, u, p, .here, h, by omega⟩
  | cons name names ih =>
    cases h with
    | step hp hn hl h =>
      obtain ⟨v, w, m, hv, hw, rfl⟩ := ih h
      exact ⟨v, w, m, .step hp hn hl hv, hw, rfl⟩
    | link hp hn ht h =>
      obtain ⟨v, w, m, hv, hw, rfl⟩ := ih h
      exact ⟨_, w, m, .link hp hn ht hv, hw, by omega⟩

/-- Names lead to one place, over one number of links. -/
theorem unique (h : Leads d p names u q) (h' : Leads d p names v r) : u = v ∧ q = r := by
  induction h generalizing v r with
  | here => cases h'; exact ⟨rfl, rfl⟩
  | step hp hn hl _ ih =>
    cases h' with
    | step hp' hn' hl' h' => exact ih h'
    | link hp' hn' ht' h' => exact absurd (Option.some.inj (hn.symm.trans hn')) (hl _)
  | link hp hn _ _ ih₁ ih₂ =>
    cases h' with
    | step hp' hn' hl' h' => exact absurd (Option.some.inj (hn'.symm.trans hn)) (hl' _)
    | link hp' hn' ht' h' =>
      obtain rfl : _ = _ := by simpa using hn.symm.trans hn'
      obtain ⟨rfl, rfl⟩ := ih₁ ht'
      obtain ⟨rfl, rfl⟩ := ih₂ h'
      exact ⟨rfl, rfl⟩

/-- The names that lead somewhere are names of files, or lead back. -/
theorem possible (h : Leads d p names u q) (ht : IsTree d) : ∀ x ∈ names, isImpossible x = false := by
  have hstep : ∀ {p name n}, d.node? p = some .folder → d.node? (stepTo p name) = some n →
      isImpossible name = false := by
    intro p name n hp hn
    by_cases hd : name = "."
    · subst hd; decide
    · by_cases hu : name = ".."
      · subst hu; decide
      · rw [stepTo, if_neg hd, if_neg hu] at hn
        exact (ht.isName_of_snoc hn).2.2
  induction h with
  | here => simp
  | step hp hn _ _ ih => exact List.forall_mem_cons.2 ⟨hstep hp hn, ih⟩
  | link hp hn _ _ _ ih => exact List.forall_mem_cons.2 ⟨hstep hp hn, ih⟩

/-- What is there at all leads to itself, unless it is a link. -/
theorem self (ht : IsTree d) {n : Node} (hn : d.node? p = some n) (hl : ∀ t, n ≠ .link t) :
    Leads d [] p 0 p := by
  induction p using List.reverseRecOn generalizing n with
  | nil => exact .here
  | append_singleton p name ih =>
    have hp := ht.folder_of_snoc hn
    have hs : stepTo p name = p ++ [name] := (ht.isName_of_snoc hn).stepTo
    have hlast : Leads d p [name] 0 (p ++ [name]) := by
      rw [← hs] at hn
      exact .step hp hn hl (hs ▸ .here)
    exact (ih hp (by simp)).append hlast

end Leads

end TableRoster.Disk
