import TableRoster.Proofs.Drift.Equal
import TableRoster.Validation

/-! # How many lines differ

What is reported as added and removed are the lines that the script adds and removes, but those that
start with the mark of their change twice: behind that mark they are taken for one of the two lines that
stand before all hunks. -/

namespace TableRoster

namespace Drift

/-- The script between the lines of two texts. -/
def scriptBetween (actual expected : String) : List Edit :=
  script (linesOf actual) (linesOf expected)

theorem linesAdded_eq (actual expected : String) : linesAdded (some actual) (some expected)
    = (added (scriptBetween actual expected)).countP fun l => !isDoubled '+' l :=
  (countMarked_unifiedLines (by decide) _ _ _).trans (countP_counts_plus _)

theorem linesRemoved_eq (actual expected : String) : linesRemoved (some actual) (some expected)
    = (removed (scriptBetween actual expected)).countP fun l => !isDoubled '-' l :=
  (countMarked_unifiedLines (by decide) _ _ _).trans (countP_counts_minus _)

end Drift

namespace Verdict

open Drift

/-- A number that a verdict reports. -/
def count? (v : Verdict) (key : String) : Option Nat :=
  match lookup? v.fields key with
  | some (.count n) => some n
  | _ => none

theorem count?_added (v : Verdict) :
    v.count? "lines_added" = some (linesAdded v.actual? v.expected?) := by
  simp [count?, lookup?, fields]

theorem count?_removed (v : Verdict) :
    v.count? "lines_removed" = some (linesRemoved v.actual? v.expected?) := by
  simp [count?, lookup?, fields]

/-- The script of two texts turns the one into the other, and what is reported of it leaves out the lines
that start with their mark twice. So the counts are right exactly if there are no such lines, and then
their difference is that of the numbers of lines. -/
theorem counts_reported (output : Path) (expected actual : String) :
    Turns (scriptBetween actual expected) (linesOf actual) (linesOf expected)
    ∧ (drifted output expected actual).count? "lines_added"
      = some ((added (scriptBetween actual expected)).countP fun l => !isDoubled '+' l)
    ∧ (drifted output expected actual).count? "lines_removed"
      = some ((removed (scriptBetween actual expected)).countP fun l => !isDoubled '-' l)
    ∧ ((drifted output expected actual).count? "lines_added"
        = some (added (scriptBetween actual expected)).length
      ↔ ∀ l ∈ added (scriptBetween actual expected), isDoubled '+' l = false)
    ∧ ((drifted output expected actual).count? "lines_removed"
        = some (removed (scriptBetween actual expected)).length
      ↔ ∀ l ∈ removed (scriptBetween actual expected), isDoubled '-' l = false)
    ∧ ((∀ l ∈ added (scriptBetween actual expected), isDoubled '+' l = false) →
      (∀ l ∈ removed (scriptBetween actual expected), isDoubled '-' l = false) →
      ∃ m n, (drifted output expected actual).count? "lines_added" = some m
        ∧ (drifted output expected actual).count? "lines_removed" = some n
        ∧ (m : Int) - n = (linesOf expected).length - (linesOf actual).length) := by
  have hturns : Turns (scriptBetween actual expected) (linesOf actual) (linesOf expected) :=
    script_turns _ _
  have hadded : (drifted output expected actual).count? "lines_added"
      = some ((added (scriptBetween actual expected)).countP fun l => !isDoubled '+' l) := by
    rw [count?_added]
    exact congrArg some (linesAdded_eq actual expected)
  have hremoved : (drifted output expected actual).count? "lines_removed"
      = some ((removed (scriptBetween actual expected)).countP fun l => !isDoubled '-' l) := by
    rw [count?_removed]
    exact congrArg some (linesRemoved_eq actual expected)
  have hall : ∀ {mark : Char} {ls : List String},
      (ls.countP fun l => !isDoubled mark l) = ls.length ↔ ∀ l ∈ ls, isDoubled mark l = false := by
    simp [List.countP_eq_length]
  refine ⟨hturns, hadded, hremoved, ?_, ?_, fun hplus hminus => ⟨_, _, hadded, hremoved, ?_⟩⟩
  · rw [hadded, Option.some_inj, hall]
  · rw [hremoved, Option.some_inj, hall]
  · have hlength := length_added (scriptBetween actual expected)
    rw [hturns.old_eq, hturns.new_eq] at hlength
    rw [hall.2 hplus, hall.2 hminus]
    omega

/-- An import that is missing is counted as one line to add. -/
theorem counts_reported_import :
    ∃ m n, (drifted ⟨.slash, ["index.ts"]⟩ "import a;\nimport b;\n\nexport x;" "import a;\n\nexport x;").count?
        "lines_added" = some m
      ∧ (drifted ⟨.slash, ["index.ts"]⟩ "import a;\nimport b;\n\nexport x;" "import a;\n\nexport x;").count?
        "lines_removed" = some n
      ∧ (m : Int) - n = 1 := by
  obtain ⟨-, -, -, -, -, hdifference⟩ :=
    counts_reported ⟨.slash, ["index.ts"]⟩ "import a;\nimport b;\n\nexport x;" "import a;\n\nexport x;"
  obtain ⟨m, n, hm, hn, hmn⟩ := hdifference (by decide) (by decide)
  exact ⟨m, n, hm, hn, hmn.trans (by decide)⟩

/-- A line of two marks and more is removed or added, and not counted. -/
theorem counts_miss_doubled :
    removed (scriptBetween "a\n-- b" "a") = ["-- b"]
    ∧ (drifted ⟨.slash, ["index.ts"]⟩ "a" "a\n-- b").count? "lines_removed" = some 0
    ∧ added (scriptBetween "a" "a\n++b;") = ["++b;"]
    ∧ (drifted ⟨.slash, ["index.ts"]⟩ "a\n++b;" "a").count? "lines_added" = some 0 := by
  decide

end Verdict

end TableRoster
