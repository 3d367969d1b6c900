import Mathlib.Data.List.TakeDrop
import TableRoster.Drift.Script

/-! # Edit scripts are right

The script of two texts turns the lines of the one into those of the other, whichever stretches are
kept: a stretch is only kept where both have the same lines. -/

namespace TableRoster.Drift

variable {es fs : List Edit} {old new old' new' ls : List String}

/-! ## What a script does -/

theorem oldLines_append (es fs : List Edit) : oldLines (es ++ fs) = oldLines es ++ oldLines fs := by
  fun_induction oldLines es <;> simp_all [oldLines]

theorem newLines_append (es fs : List Edit) : newLines (es ++ fs) = newLines es ++ newLines fs := by
  fun_induction newLines es <;> simp_all [newLines]

/-- The lines that a script adds. -/
def added : List Edit → List String
  | [] => []
  | .add l :: es => l :: added es
  | _ :: es => added es

/-- The lines that a script removes. -/
def removed : List Edit → List String
  | [] => []
  | .remove l :: es => l :: removed es
  | _ :: es => removed es

/-- What a script adds and removes makes up for the difference in length. -/
theorem length_added (es : List Edit) :
    (added es).length + (oldLines es).length = (removed es).length + (newLines es).length := by
  induction es with
  | nil => rfl
  | cons e es ih =>
    cases e <;> simp only [added, removed, oldLines, newLines, List.length_cons] <;> omega

/-- A script that turns old lines into new ones. -/
structure Turns (es : List Edit) (old new : List String) : Prop where
  old_eq : oldLines es = old
  new_eq : newLines es = new

namespace Turns

theorem append (h : Turns es old new) (h' : Turns fs old' new') :
    Turns (es ++ fs) (old ++ old') (new ++ new') :=
  ⟨by rw [oldLines_append, h.old_eq, h'.old_eq], by rw [newLines_append, h.new_eq, h'.new_eq]⟩

theorem keep (ls : List String) : Turns (ls.map .keep) ls ls := by
  induction ls with
  | nil => exact ⟨rfl, rfl⟩
  | cons l ls ih => exact ⟨congrArg (l :: ·) ih.old_eq, congrArg (l :: ·) ih.new_eq⟩

theorem remove (ls : List String) : Turns (ls.map .remove) ls [] := by
  induction ls with
  | nil => exact ⟨rfl, rfl⟩
  | cons l ls ih => exact ⟨congrArg (l :: ·) ih.old_eq, ih.new_eq⟩

theorem add (ls : List String) : Turns (ls.map .add) [] ls := by
  induction ls with
  | nil => exact ⟨rfl, rfl⟩
  | cons l ls ih => exact ⟨ih.old_eq, congrArg (l :: ·) ih.new_eq⟩

theorem replace (old new : List String) : Turns (old.map .remove ++ new.map .add) old new := by
  simpa using (remove old).append (add new)

end Turns

/-! ## Scripts for windows -/

theorem linesFrom_append (lines : Array String) {i j k : Nat} (hij : i ≤ j) (hjk : j ≤ k) :
    linesFrom lines i j ++ linesFrom lines j k = linesFrom lines i k := by
  unfold linesFrom
  rw [show k - i = (j - i) + (k - j) by omega, List.take_add, List.drop_drop,
    show i + (j - i) = j by omega]

/-- A script for a window turns its old lines into its new ones. -/
theorem Texts.scriptOf_turns (t : Texts) (fuel : Nat) {w : Window} (hold : w.oldFrom ≤ w.oldTo)
    (hnew : w.newFrom ≤ w.newTo) : Turns (t.scriptOf fuel w) (linesFrom t.old w.oldFrom w.oldTo)
      (linesFrom t.new w.newFrom w.newTo) := by
  induction fuel generalizing w with
  | zero => exact .replace _ _
  | succ fuel ih =>
    unfold Texts.scriptOf
    generalize t.stretch w = s
    dsimp only
    split
    · rename_i h
      obtain ⟨-, ho, ho', hn, hn', hsame⟩ := h
      have hfront := ih (w := ⟨w.oldFrom, s.old, w.newFrom, s.new⟩) ho hn
      have hkept := Turns.keep (linesFrom t.old s.old (s.old + s.length))
      have hback := ih (w := ⟨s.old + s.length, w.oldTo, s.new + s.length, w.newTo⟩) ho' hn'
      have hall := (hfront.append hkept).append hback
      -- the kept lines are those of both sides
      rw [linesFrom_append _ ho (Nat.le_add_right ..), hsame,
        linesFrom_append _ hn (Nat.le_add_right ..),
        linesFrom_append _ (Nat.le_trans ho (Nat.le_add_right ..)) ho',
        linesFrom_append _ (Nat.le_trans hn (Nat.le_add_right ..)) hn'] at hall
      rwa [hsame]
    · exact .replace _ _

/-- The script of two texts turns the one into the other. -/
theorem script_turns (old new : List String) : Turns (script old new) old new := by
  have h := Texts.scriptOf_turns ⟨old.toArray, new.toArray, (old.map (placesOf new)).toArray⟩
    (old.length + 1) (w := ⟨0, old.length, 0, new.length⟩) (Nat.zero_le _) (Nat.zero_le _)
  simpa [linesFrom, script] using h

end TableRoster.Drift
