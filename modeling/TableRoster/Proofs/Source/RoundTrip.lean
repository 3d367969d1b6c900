import TableRoster.Proofs.Source.Lines

/-! # Printing bindings and reading them back

A module with one binding a line, each closed by a semicolon, declares these bindings and no
others. -/

namespace TableRoster.Source

/-- The text of a module of lines. -/
def textOf (ls : List Line) : String :=
  String.join (ls.map fun l => l.text ++ ";\n")

variable {rd : Reader} {w : List Char}

/-! ## One line -/

theorem splitExpression_mark {t : Token} (h : t.isMarkOf [",", ";"] = true) (before : Option Token)
    (us : List Token) :
    splitExpression 0 (place before (t :: us)) = ([], place before (t :: us)) := by
  have hbracket : t.opens = false ∧ t.closes = false := by
    simp only [Token.isMarkOf, Bool.and_eq_true, List.contains_iff_mem] at h
    obtain ⟨-, ht⟩ := h
    simp only [List.mem_cons, List.not_mem_nil, or_false] at ht
    rcases ht with ht | ht <;> simp [Token.opens, Token.closes, Token.isMarkOf, ht]
  rw [place, splitExpression]
  simp [hbracket, h]

/-- An expression is split off in front of a comma or a semicolon. -/
theorem splitExpression_front {t : Token} {ts : List Token} (h : Whole 0 ts)
    (ht : t.isMarkOf [",", ";"] = true) (before : Option Token) (us : List Token) :
    splitExpression 0 (place before (ts ++ t :: us))
      = (ts, place (ts.getLast?.or before) (t :: us)) := by
  rw [place_append, splitExpression_whole h, splitExpression_mark ht, List.append_nil]

theorem splitExpression_semicolon (semi : Token) (hk : semi.kind = .mark) (ht : semi.text = ";")
    (before : Option Token) (us : List Token) :
    splitExpression 0 (place before (semi :: us)) = ([], place before (semi :: us)) :=
  splitExpression_mark (by simp [Token.isMarkOf, hk, ht]) before us

/-- The whole of a line, in front of any text. -/
theorem Line.Valid.reads_text {l : Line} (hl : l.Valid) (hp : 1 ≤ rd.line) :
    ∃ ts, ∃ rd' : Reader, Reads w rd (l.text ++ ";\n").toList ts rd'.lineEnd ∧
      1 ≤ rd'.lineEnd.line ∧ IsStart rd'.lineEnd.last ∧ ∀ {before : Option Token} (us : List Token), IsStart before →
        ∃ line, statements 0 (place before (ts ++ us))
          = .bindings l.exported l.keyword [⟨l.name, line, some (rd.offset + l.opening.length,
              rd.offset + l.opening.length + l.initializer.length)⟩]
            :: statements 0 (place rd'.lineEnd.last us) := by
  obtain ⟨ts, rd₁, last, hline, hp₁, _, htaken⟩ :=
    hl.reads (w := ';' :: '\n' :: w) hp (seam_semicolon w)
  refine ⟨_, _, by simpa [Line.toList_text] using hline.append .lineEnd, ?_, ?_, ?_⟩
  · exact Nat.le_trans hp₁ (Reads.lineEnd (w := w)).line_le
  · rintro t ⟨⟩
    rfl
  · intro before us hbefore
    have hsplit := splitExpression_semicolon (rd₁.tokenOf .mark [';']) rfl rfl (some last)
      ((rd₁.advance (.token .mark) [';']).tokenOf .lineBreak ['\n'] :: us)
    obtain ⟨line, h⟩ := htaken.statements hbefore hsplit rfl (by simp)
    refine ⟨line, ?_⟩
    rw [statements_skip rfl rfl rfl, statements_skip rfl rfl rfl, List.getLast?_nil,
      Option.getD_none, htaken.stop] at h
    rw [List.append_assoc]
    exact h

/-! ## All lines -/

/-- Lines read behind `pre` stand for their statements, one each. -/
theorem statements_lines {ls : List Line} (h : ∀ l ∈ ls, l.Valid) {rd : Reader} {pre : List Char}
    (hp : 1 ≤ rd.line) (hs : IsStart rd.last) (ho : rd.offset = pre.length) :
    List.Forall₂ (Line.Stands (pre ++ (textOf ls).toList)) ls
      (statements 0 (place rd.last (lex rd (textOf ls).toList))) := by
  induction ls generalizing rd pre with
  | nil => simp [textOf, lex, place, statements]
  | cons l ls ih =>
      have htext : (textOf (l :: ls)).toList = (l.text ++ ";\n").toList ++ (textOf ls).toList := by
        simp [textOf, String.join_cons]
      obtain ⟨ts, rd', hr, hp', hs', hstatement⟩ :=
        (h l (by simp)).reads_text (w := (textOf ls).toList) hp
      obtain ⟨line, hstatement⟩ := hstatement (lex rd'.lineEnd (textOf ls).toList) hs
      rw [htext, hr.lex_append, hstatement]
      refine .cons ⟨line, _, _, rfl, ?_⟩ ?_
      · have hslice := slice_append (pre ++ l.opening) l.initializer
          ([';', '\n'] ++ (textOf ls).toList)
        simpa [Line.toList_text, ho] using hslice
      · have hoffset : rd'.lineEnd.offset = (pre ++ (l.text ++ ";\n").toList).length := by
          rw [hr.offset, ho, List.length_append]
        simpa using ih (fun l hl => h l (by simp [hl])) hp' hs' hoffset

/-- Printing bindings and reading them back gives the bindings, in order. -/
theorem declarations_textOf {ls : List Line} (h : ∀ l ∈ ls, l.Valid) :
    (declarations (textOf ls)).map Declaration.printed = ls.map Line.printed := by
  have hline : 1 ≤ Reader.start.line := Nat.le_refl 1
  have hoffset : Reader.start.offset = ([] : List Char).length := rfl
  exact declarations_of_stands (statements_lines h hline isStart_none hoffset)

/-- Two lines: a call with an object, and a regular expression that holds a semicolon. -/
theorem declarations_textOf_call_regex :
    (declarations "export const users = pgTable(\"users\", \x7b a: 1,\n b \x7d);\nlet r = /;/g;\n").map
        Declaration.printed
      = [("users", "const", some "pgTable(\"users\", \x7b a: 1,\n b \x7d)", some "users"),
          ("r", "let", some "/;/g", none)] := by
  have hlines : ∀ l ∈ [(⟨true, "const", "users", "pgTable(\"users\", \x7b a: 1,\n b \x7d)"⟩ : Line),
      ⟨false, "let", "r", "/;/g"⟩], l.Valid := by
    intro l hl
    simp only [List.mem_cons, List.not_mem_nil, or_false] at hl
    rcases hl with rfl | rfl <;>
      exact ⟨by decide, by decide, by decide, by decide +kernel⟩
  have htext : textOf [⟨true, "const", "users", "pgTable(\"users\", \x7b a: 1,\n b \x7d)"⟩,
      ⟨false, "let", "r", "/;/g"⟩]
      = "export const users = pgTable(\"users\", \x7b a: 1,\n b \x7d);\nlet r = /;/g;\n" := by
    decide +kernel
  rw [← htext]
  exact declarations_textOf hlines

end TableRoster.Source
