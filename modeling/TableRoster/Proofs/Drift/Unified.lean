import Mathlib.Data.List.Basic
import TableRoster.Drift.Unified
import TableRoster.Proofs.Drift.Script

/-! # What differences show

The hunks of a script show each of its changes once, in order, however much context they have. Their
lines are counted by the marks that they start with. -/

namespace TableRoster.Drift

variable {es : List Edit} {old new : List String} {n : Nat} {mark : Char}

/-! ## Changes -/

def Edit.isChange : Edit → Bool
  | .keep _ => false
  | _ => true

/-- What a script changes: the lines that it removes and adds. -/
def changes (es : List Edit) : List Edit :=
  es.filter Edit.isChange

namespace Run

def changes : Run → List Edit
  | .kept _ => []
  | .changed old new => old.map .remove ++ new.map .add

theorem changes_pushEdit (e : Edit) (runs : List Run) :
    (pushEdit e runs).flatMap changes = (if e.isChange then [e] else []) ++ runs.flatMap changes := by
  fun_cases pushEdit e runs <;> simp_all [changes, Edit.isChange]

theorem changes_runsOf (es : List Edit) : (runsOf es).flatMap changes = Drift.changes es := by
  induction es with
  | nil => rfl
  | cons e es ih =>
    rw [runsOf, List.foldr_cons, changes_pushEdit, ← runsOf, ih, Drift.changes, Drift.changes,
      List.filter_cons]
    split <;> rfl

end Run

namespace Placed

def changes (p : Placed) : List Edit :=
  p.run.changes

theorem changes_last (k : Nat) (p : Placed) : (p.last k).changes = p.changes := by
  unfold last
  split
  · rename_i h
    simp [changes, h, Run.changes]
  · rfl

theorem changes_first (k : Nat) (p : Placed) : (p.first k).changes = p.changes := by
  unfold first
  split
  · rename_i h
    simp [changes, h, Run.changes]
  · rfl

theorem changes_of_isKept {p : Placed} (h : p.isKept = true) : p.changes = [] := by
  obtain ⟨_, _, _ | _⟩ := p
  · rfl
  · cases h

theorem changes_placeRuns (old new : Nat) (rs : List Run) :
    (placeRuns old new rs).flatMap changes = rs.flatMap Run.changes := by
  induction rs generalizing old new with
  | nil => rfl
  | cons r rs ih =>
    rw [placeRuns, List.flatMap_cons, List.flatMap_cons, ih]
    rfl

end Placed

/-! ## Hunks -/

theorem changes_trimContext (n : Nat) (ps : List Placed) :
    (trimContext n ps).flatMap Placed.changes = ps.flatMap Placed.changes := by
  unfold trimContext
  cases ps with
  | nil => rfl
  | cons p ps =>
    obtain ⟨front, q, hfront⟩ := (List.eq_nil_or_concat' (p.last n :: ps)).resolve_left nofun
    have hall : (front ++ [q]).flatMap Placed.changes = (p :: ps).flatMap Placed.changes := by
      rw [← hfront, List.flatMap_cons, Placed.changes_last, List.flatMap_cons]
    dsimp only
    rw [hfront, List.getLast?_concat, ← hall]
    simp [Placed.changes_first]

/-- A run that ends a hunk and starts the next is cut where nothing changes. -/
theorem changes_hunksFrom (n : Nat) (current ps : List Placed) :
    (hunksFrom n current ps).flatMap (·.flatMap Placed.changes)
      = current.reverse.flatMap Placed.changes ++ ps.flatMap Placed.changes := by
  induction ps generalizing current with
  | nil => simp [hunksFrom]
  | cons p ps ih =>
    unfold hunksFrom
    split
    · rename_i h
      simp [ih, Placed.changes_first, Placed.changes_last, Placed.changes_of_isKept h.1]
    · simp [ih]

theorem changes_of_isIdle {hunk : List Placed} (h : isIdle hunk = true) :
    hunk.flatMap Placed.changes = [] := by
  unfold isIdle at h
  split at h
  · rfl
  · simpa using Placed.changes_of_isKept h
  · cases h

/-- The hunks of a script show all that it changes. -/
theorem changes_hunks (n : Nat) (es : List Edit) :
    (hunks n es).flatMap (·.flatMap Placed.changes) = changes es := by
  have hall : (hunksFrom n [] (trimContext n (placeRuns 0 0 (runsOf es)))).flatMap
      (·.flatMap Placed.changes) = changes es := by
    rw [changes_hunksFrom, changes_trimContext, Placed.changes_placeRuns, Run.changes_runsOf]
    rfl
  unfold hunks
  dsimp only
  rw [← hall]
  generalize hunksFrom n [] (trimContext n (placeRuns 0 0 (runsOf es))) = all
  rcases List.eq_nil_or_concat' all with rfl | ⟨front, h, rfl⟩
  · rfl
  · rw [List.getLast?_concat]
    dsimp only
    split
    · rename_i hidle
      rw [List.dropLast_concat, List.flatMap_append, List.flatMap_singleton, changes_of_isIdle hidle,
        List.append_nil]
    · rfl

/-- Differences are shown where there are changes, and nowhere else. -/
theorem hunks_eq_nil_iff : hunks n es = [] ↔ changes es = [] := by
  refine ⟨fun h => by rw [← changes_hunks n es, h]; rfl, fun h => ?_⟩
  have hkept : ∃ ls, runsOf es = [] ∨ runsOf es = [.kept ls] := by
    induction es with
    | nil => exact ⟨[], .inl rfl⟩
    | cons e es ih =>
      cases e with
      | keep l =>
        obtain ⟨ls, hr | hr⟩ := ih h
        · exact ⟨[l], .inr (by rw [runsOf, List.foldr_cons, ← runsOf, hr]; rfl)⟩
        · exact ⟨l :: ls, .inr (by rw [runsOf, List.foldr_cons, ← runsOf, hr]; rfl)⟩
      | remove | add => cases h
  obtain ⟨ls, hr | hr⟩ := hkept
  · rw [hunks, hr]
    rfl
  · -- the one run is cut to its context, which is too short to be cut again
    have htrim : trimContext n (placeRuns 0 0 [.kept ls])
        = [((⟨0, 0, .kept ls⟩ : Placed).last n).first n] := rfl
    have hkept : (((⟨0, 0, .kept ls⟩ : Placed).last n).first n).isKept = true := rfl
    have hshort : (((⟨0, 0, .kept ls⟩ : Placed).last n).first n).oldLength ≤ n :=
      List.length_take_le _ _
    rw [hunks, hr, htrim, hunksFrom, if_neg (by omega), hunksFrom]
    simp [isIdle, hkept]

theorem unifiedLines_eq_nil_iff : unifiedLines n old new = [] ↔ changes (script old new) = [] := by
  rw [← hunks_eq_nil_iff (n := n), unifiedLines]
  cases hunks n (script old new) with
  | nil => exact ⟨fun _ => rfl, fun _ => rfl⟩
  | cons h hs => exact ⟨nofun, nofun⟩

/-! ## Marks -/

/-- Whether a line starts with a mark twice. Behind the mark of its change it looks like one of the two
lines that stand before all hunks. -/
def isDoubled (mark : Char) (line : String) : Bool :=
  [mark, mark].isPrefixOf line.toList

/-- The changes that are counted by a mark. -/
def Edit.counts (mark : Char) : Edit → Bool
  | .keep _ => false
  | .remove l => mark == '-' && !isDoubled '-' l
  | .add l => mark == '+' && !isDoubled '+' l

/-- The marks of removed and of added lines. -/
def changeMarks : List Char :=
  ['-', '+']

theorem countP_changes (mark : Char) (es : List Edit) :
    (changes es).countP (Edit.counts mark) = es.countP (Edit.counts mark) := by
  rw [changes, List.countP_filter]
  refine List.countP_congr fun e _ => ?_
  cases e <;> simp [Edit.counts, Edit.isChange]

theorem countMarked_runLines (hm : mark ∈ changeMarks) (r : Run) :
    countMarked mark (runLines r) = r.changes.countP (Edit.counts mark) := by
  obtain rfl | rfl : mark = '-' ∨ mark = '+' := by simpa [changeMarks] using hm
  all_goals
    cases r with
    | kept ls =>
      simp [countMarked, runLines, Run.changes, List.countP_map, Function.comp_def]
    | changed old new =>
      simp [countMarked, runLines, Run.changes, List.countP_map, Function.comp_def, Edit.counts,
        isDoubled]

theorem countMarked_hunkLines (hm : mark ∈ changeMarks) (hunk : List Placed) :
    countMarked mark (hunkLines hunk)
      = (hunk.flatMap Placed.changes).countP (Edit.counts mark) := by
  have hat : '@' ≠ mark := by
    rintro rfl
    exact absurd hm (by decide)
  have hruns : countMarked mark (hunkLines hunk)
      = countMarked mark (hunk.flatMap fun p => runLines p.run) := by
    rw [countMarked, hunkLines, List.countP_cons_of_neg]
    · rfl
    · simp [Ne.symm hat]
  rw [hruns, countMarked, List.countP_flatMap, List.countP_flatMap]
  exact congrArg List.sum (List.map_congr_left fun p _ => countMarked_runLines hm p.run)

/-- What is counted by a mark are the changes with that mark, but those of lines that start with it
twice. -/
theorem countMarked_unifiedLines (hm : mark ∈ changeMarks) (n : Nat) (old new : List String) :
    countMarked mark (unifiedLines n old new) = (script old new).countP (Edit.counts mark) := by
  have hhead : countMarked mark ["--- persisted", "+++ expected"] = 0 := by
    rcases List.mem_pair.1 hm with rfl | rfl <;> decide
  rw [← countP_changes, ← changes_hunks n]
  unfold unifiedLines
  split
  · rename_i hnone
    rw [hnone]
    rfl
  · rw [← List.nil_append (List.flatMap _ _), ← List.cons_append, ← List.cons_append, countMarked,
      List.countP_append, ← countMarked, hhead, Nat.zero_add, List.countP_flatMap,
      List.countP_flatMap]
    exact congrArg List.sum (List.map_congr_left fun h _ => countMarked_hunkLines hm h)

theorem countP_counts_plus (es : List Edit) :
    es.countP (Edit.counts '+') = (added es).countP fun l => !isDoubled '+' l := by
  induction es with
  | nil => rfl
  | cons e es ih => cases e <;> simp [List.countP_cons, added, Edit.counts, ih]

theorem countP_counts_minus (es : List Edit) :
    es.countP (Edit.counts '-') = (removed es).countP fun l => !isDoubled '-' l := by
  induction es with
  | nil => rfl
  | cons e es ih => cases e <;> simp [List.countP_cons, removed, Edit.counts, ih]

end TableRoster.Drift
