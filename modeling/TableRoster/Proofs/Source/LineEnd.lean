import TableRoster.Proofs.Source.Lines
import TableRoster.Proofs.Source.Form

/-! # Lines without a semicolon

Where a line is not closed by a semicolon, its last token decides whether the statement on the next
line stands by itself or is taken into the initializer before it. -/

namespace TableRoster.Source

open Text

/-! ## The last token -/

/-- A token that takes the next line into its expression, whatever stands there. -/
def Token.asksForMore (t : Token) : Bool :=
  t.isMarkOf marksBeforeMore || t.isWordOf wordsBeforeMore

variable {before : Option Token} {last nl t : Token} {ts us : List Token}

theorem continuesLine_of_starts (ht : t.isWordOf ("export" :: bindingKeywords)) :
    (Placed.mk (some last) nl (some t)).continuesLine false = last.asksForMore := by
  have hk := Token.kind_of_isWordOf ht
  have hgo : (Placed.mk (some last) nl (some t)).goesOn = false := by
    simp only [Token.isWordOf, Bool.and_eq_true, List.contains_iff_mem] at ht
    have hm : t.text ∉ wordsAfterMore :=
      (by decide : ∀ x ∈ "export" :: bindingKeywords, x ∉ wordsAfterMore) _ ht.2
    simp [Placed.goesOn, Token.isMarkOf, Token.isWordOf, hk, hm]
  simp [Placed.continuesLine, hgo, Placed.asksForMore, Token.asksForMore]

theorem splitExpression_break (last : Token) (hnl : nl.isBreak = true) (hn : us.head? = some t)
    (ht : t.isWordOf ("export" :: bindingKeywords)) :
    splitExpression 0 (place (some last) (nl :: us)) =
      if last.asksForMore then
        (nl :: (splitExpression 0 (place (some nl) us)).1, (splitExpression 0 (place (some nl) us)).2)
      else ([], place (some last) (nl :: us)) := by
  have hk : nl.kind = .lineBreak := by simpa [Token.isBreak] using hnl
  have hmark : ∀ texts, nl.isMarkOf texts = false := by simp [Token.isMarkOf, hk]
  rw [place, hn, splitExpression]
  simp only [Token.opens, Token.closes, hmark, hnl, continuesLine_of_starts ht]
  cases last.asksForMore <;> simp

/-- A line break that ends the module ends an expression. -/
theorem splitExpression_lastBreak (hnl : nl.isBreak = true) :
    splitExpression 0 (place before [nl]) = ([], place before [nl]) := by
  have hk : nl.kind = .lineBreak := by simpa [Token.isBreak] using hnl
  simp [place, splitExpression, Token.opens, Token.closes, Token.isMarkOf, Token.isBreak, hk,
    Placed.continuesLine]

/-! ## Two lines -/

/-- A text without a slash closes no regular expression. -/
theorem afterRegex_of_no_slash {s : List Char} (h : '/' ∉ s) (k : Bool) : afterRegex k s = none := by
  fun_induction afterRegex k s with
  | case1 | case2 | case4 => rfl
  | case3 _ _ _ ih => exact ih (by simp_all)
  | case5 _ _ _ _ _ ih => exact ih (by simp_all)
  | case6 => simp_all
  | case7 _ _ _ _ _ _ _ _ ih => exact ih (by simp_all)

/-- A line break in front of a text without a slash. -/
theorem seam_lineBreak {s : List Char} (h : '/' ∉ s) : Seam ('\n' :: s) :=
  .intro (by decide) (by simp [afterRegex]) (afterRegex_of_no_slash h)

/-- Two lines, with no semicolon at the end of either. -/
def Line.pairText (a b : Line) : String :=
  a.text ++ "\n" ++ b.text ++ "\n"

theorem Line.toList_pairText (a b : Line) : (a.pairText b).toList =
    (a.opening ++ a.initializer.toList) ++ '\n' :: ((b.opening ++ b.initializer.toList) ++ ['\n']) := by
  simp [Line.pairText, Line.toList_text]

/-- The tokens of two lines. -/
structure Line.Pair (a b : Line) (ts us : List Token) (x nl y nl' : Token) : Prop where
  tokens : Source.tokens (a.pairText b) = ts ++ nl :: (us ++ [nl'])
  first : a.Taken 0 ts x
  break_first : nl.isBreak = true
  second : b.Taken (a.opening.length + a.initializer.length + 1) us y
  break_second : nl'.isBreak = true

theorem Line.Valid.slash_not_in_opening {l : Line} (hl : l.Valid) : '/' ∉ l.opening := by
  have hslash : continuesWord '/' = false := by decide
  have hk := not_mem_of_isWordText (keyword_isWordText _ hl.keyword) hslash
  have hn := not_mem_of_isWordText hl.name hslash
  unfold Line.opening
  cases l.exported <;> simp [hk, hn]

theorem Line.Valid.pair {a b : Line} (ha : a.Valid) (hb : b.Valid)
    (hs : '/' ∉ b.initializer.toList) : ∃ ts us x nl y nl', a.Pair b ts us x nl y nl' := by
  have hslash : '/' ∉ b.opening ++ b.initializer.toList ++ ['\n'] := by
    simp [hb.slash_not_in_opening, hs]
  obtain ⟨ts, rd, x, hra, hp, hbr, hta⟩ :=
    ha.reads (show 1 ≤ Reader.start.line from Nat.le_refl 1) (seam_lineBreak hslash)
  have hnl : Reads (b.opening ++ b.initializer.toList ++ ['\n']) rd ['\n'] _ _ := .lineBreak hbr
  obtain ⟨us, rd', y, hrb, _, hbr', htb⟩ := hb.reads (w := ['\n'])
    (Nat.le_trans hp hnl.line_le) (seam_lineBreak (by simp))
  have hnl' : Reads [] rd' ['\n'] _ _ := .lineBreak hbr'
  have hoff : (rd.advance .lineBreak ['\n']).offset = a.opening.length + a.initializer.length + 1 := by
    rw [hnl.offset, hra.offset]
    simp [Reader.start, String.length_toList]
  refine ⟨ts, us, x, rd.tokenOf .lineBreak ['\n'], y, rd'.tokenOf .lineBreak ['\n'], ?_, hta, rfl,
    hoff ▸ htb, rfl⟩
  have hbreak : lex rd ('\n' :: (b.opening ++ b.initializer.toList ++ ['\n'])) = _ := hnl.lex_append
  have hbreak' : lex rd' ['\n'] = _ := hnl'.lex_append
  rw [tokens, Line.toList_pairText, hra.lex_append, hbreak, hrb.lex_append, hbreak', lex]
  rfl

/-- The statements of two lines: one or both, by the last token of the first. -/
theorem Line.Pair.statements {a b : Line} {ts us : List Token} {x nl y nl' : Token}
    (h : a.Pair b ts us x nl y nl') :
    ∃ m n, statementsOf (a.pairText b) =
      if x.asksForMore then
        [.bindings a.exported a.keyword [⟨a.name, m, some (a.opening.length, y.stop)⟩]]
      else
        [.bindings a.exported a.keyword [⟨a.name, m, some (a.opening.length, x.stop)⟩],
          .bindings b.exported b.keyword [⟨b.name, n,
            some (a.opening.length + a.initializer.length + 1 + b.opening.length, y.stop)⟩]] := by
  obtain ⟨t, hhead, ht⟩ := h.second.starts
  have hk : nl.kind = .lineBreak := by simpa [Token.isBreak] using h.break_first
  have hk' : nl'.kind = .lineBreak := by simpa [Token.isBreak] using h.break_second
  have hcomma : ∀ {x : Token} {ts : List Token}, x.kind = .lineBreak → ∀ before,
      nextIs (place before (x :: ts)) "," = false := by
    intro x ts hx before
    simp [nextIs, place, Token.is, hx]
  have hend : Source.statements 0 (place (some y) [nl']) = [] := by
    rw [statements_skip_break h.break_second]
    simp [place, Source.statements]
  have hhead' : (us ++ [nl']).head? = some t := by simp [hhead]
  have hsplit := splitExpression_break x h.break_first hhead' ht
  rw [statementsOf, h.tokens]
  cases hask : x.asksForMore with
  | true =>
      have hlast : (nl :: us).getLast? = some y := by
        rw [List.getLast?_cons, h.second.ends]
        rfl
      -- the second line is whole, so the expression ends behind it at the earliest
      rw [hask, if_pos rfl, place_append, splitExpression_whole h.second.whole, h.second.ends,
        Option.some_or, splitExpression_lastBreak h.break_second, List.append_nil] at hsplit
      obtain ⟨m, hm⟩ := h.first.statements isStart_none hsplit (hcomma hk' _)
        (fun t ht => by
          obtain rfl : y = t := Option.some.inj (hlast.symm.trans ht)
          exact h.second.whole.last_not_isBreak h.second.ends)
      refine ⟨m, 0, ?_⟩
      rw [hm, hend, hlast]
      simp
  | false =>
      rw [hask, if_neg (by decide)] at hsplit
      obtain ⟨m, hm⟩ := h.first.statements isStart_none hsplit (hcomma hk _) (by simp)
      obtain ⟨n, hn⟩ := h.second.statements (isStart_some h.break_first)
        (splitExpression_lastBreak h.break_second)
        (hcomma hk' _) (by simp)
      refine ⟨m, n, ?_⟩
      rw [hm, statements_skip_break h.break_first, hn, hend]
      simp

section

variable {a b : Line} {ts us : List Token} {x nl y nl' : Token} (h : a.Pair b ts us x nl y nl')

include h

theorem Line.Pair.slice_first :
    slice (a.pairText b).toList a.opening.length x.stop = a.initializer := by
  have hslice := slice_append a.opening a.initializer ("\n" ++ b.text ++ "\n").toList
  simpa [Line.pairText, Line.toList_text, h.first.stop] using hslice

theorem Line.Pair.slice_second :
    slice (a.pairText b).toList
        (a.opening.length + a.initializer.length + 1 + b.opening.length) y.stop
      = b.initializer := by
  have hslice := slice_append (a.opening ++ a.initializer.toList ++ ['\n'] ++ b.opening)
    b.initializer ['\n']
  have hpre : (a.opening ++ a.initializer.toList ++ ['\n'] ++ b.opening).length
      = a.opening.length + a.initializer.length + 1 + b.opening.length := by
    simp only [List.length_append, List.length_singleton, String.length_toList]
  rw [hpre, ← h.second.stop] at hslice
  simpa [Line.toList_pairText] using hslice

theorem Line.Pair.slice_both :
    slice (a.pairText b).toList a.opening.length y.stop = a.initializer ++ "\n" ++ b.text := by
  have hbreak : "\n".length = 1 := rfl
  have hlen : b.text.length = b.opening.length + b.initializer.length := by
    rw [← String.length_toList, Line.toList_text, List.length_append, String.length_toList]
  have hstop : y.stop = a.opening.length + (a.initializer ++ "\n" ++ b.text).length := by
    simp [h.second.stop, hlen, hbreak, Nat.add_assoc]
  rw [hstop]
  have hslice := slice_append a.opening (a.initializer ++ "\n" ++ b.text) ['\n']
  simpa [Line.pairText, Line.toList_text] using hslice

end

/-- Two lines declare both names if the last token of the first asks for nothing more. Otherwise the
second line belongs to the initializer of the first. -/
theorem Line.Valid.declarations_pair {a b : Line} (ha : a.Valid) (hb : b.Valid)
    (hs : '/' ∉ b.initializer.toList) : ∃ x, (tokens a.initializer).getLast? = some x ∧
      (declarations (a.pairText b)).map Declaration.printed =
        if x.asksForMore then
          [{ a with initializer := a.initializer ++ "\n" ++ b.text }.printed]
        else [a.printed, b.printed] := by
  obtain ⟨ts, us, x, nl, y, nl', h⟩ := ha.pair hb hs
  obtain ⟨m, n, hstatements⟩ := h.statements
  obtain ⟨x', o, k, hx', hx⟩ := h.first.same
  refine ⟨x', hx', ?_⟩
  have hask : x.asksForMore = x'.asksForMore := by
    rw [hx]
    rfl
  rw [hask] at hstatements
  cases hm : x'.asksForMore with
  | true =>
      rw [hm, if_pos rfl] at hstatements
      have hstands : List.Forall₂ (Line.Stands (a.pairText b).toList)
          [{ a with initializer := a.initializer ++ "\n" ++ b.text }] (statementsOf (a.pairText b)) := by
        rw [hstatements]
        exact .cons ⟨m, _, _, rfl, h.slice_both⟩ .nil
      exact declarations_of_stands hstands
  | false =>
      rw [hm, if_neg (by decide)] at hstatements
      have hstands : List.Forall₂ (Line.Stands (a.pairText b).toList) [a, b]
          (statementsOf (a.pairText b)) := by
        rw [hstatements]
        exact .cons ⟨m, _, _, rfl, h.slice_first⟩ (.cons ⟨n, _, _, rfl, h.slice_second⟩ .nil)
      exact declarations_of_stands hstands

/-! ## Forms at the end of a line -/

/-- A token that a form ends with, and that takes the next line into its expression. -/
def Token.takesNextLine (t : Token) : Bool :=
  t.isMarkOf ["!"] || 0 < closedAngles t || t.isWordOf wordsBeforeMore

theorem Token.EndsForm.asksForMore (h : t.EndsForm) : t.asksForMore = t.takesNextLine := by
  cases h with
  | solid h =>
      have hm : ∀ texts, t.isMarkOf texts = false := by simp [isMarkOf, h]
      simp [Token.asksForMore, takesNextLine, closedAngles, hm]
  | bracket h =>
      obtain ⟨hk, hx⟩ := mem_of_isMarkOf h
      simp only [List.mem_cons, List.not_mem_nil, or_false] at hx
      rcases hx with hx | hx | hx <;>
        simp [Token.asksForMore, takesNextLine, closedAngles, isMarkOf, isWordOf, hk, hx,
          marksBeforeMore]
  | asserted h =>
      obtain ⟨hk, hx⟩ := mem_of_isMarkOf h
      have hx : t.text = "!" := by simpa using hx
      simp [Token.asksForMore, takesNextLine, isMarkOf, hk, hx, marksBeforeMore]
  | angle h =>
      have hm : t.isMarkOf [">", ">>", ">>>"] = true := by
        unfold closedAngles at h
        split at h
        · assumption
        · simp at h
      obtain ⟨hk, hx⟩ := mem_of_isMarkOf hm
      have hmore : t.text ∈ marksBeforeMore :=
        (by decide : ∀ x ∈ [">", ">>", ">>>"], x ∈ marksBeforeMore) _ hx
      simp [Token.asksForMore, takesNextLine, isMarkOf, hk, hmore, h]

theorem complete_table : Complete "pgTable(\"b\", \x7b\x7d)" := by decide +kernel

/-- An exported binding without a semicolon, in front of another one. The second is declared unless
the initializer of the first ends with `!`, with a closing angle, or with a word that needs more
behind it; then the second line is part of that initializer. -/
theorem declarations_form_export {a b e : String} (ha : isWordText a.toList = true)
    (ha' : a ≠ "enum") (hb : isWordText b.toList = true) (hb' : b ≠ "enum") (he : Alone e)
    (hf : Form (tokens e)) :
    (declarations ("export const " ++ a ++ " = " ++ e ++ "\nexport const " ++ b
        ++ " = pgTable(\"b\", \x7b\x7d)\n")).map Declaration.printed =
      if (tokens e).getLast?.any Token.takesNextLine then
        [(a, "const", some (e ++ "\nexport const " ++ b ++ " = pgTable(\"b\", \x7b\x7d)"), some a)]
      else
        [(a, "const", some e, some a),
          (b, "const", some "pgTable(\"b\", \x7b\x7d)", some b)] := by
  have hva : Line.Valid ⟨true, "const", a, e⟩ := ⟨by simp [bindingKeywords], ha, ha', he, hf.whole⟩
  have hvb : Line.Valid ⟨true, "const", b, "pgTable(\"b\", \x7b\x7d)"⟩ :=
    ⟨by simp [bindingKeywords], hb, hb', complete_table⟩
  obtain ⟨x, hx, h⟩ := hva.declarations_pair hvb (by simp)
  rw [(hf.endsForm hx).asksForMore] at h
  have hany : (tokens e).getLast?.any Token.takesNextLine = x.takesNextLine := by
    rw [hx, Option.any_some]
  have hbreak : "\nexport const " = "\n" ++ "export const " := by decide
  have hcall : " = pgTable(\"b\", \x7b\x7d)" = " = " ++ "pgTable(\"b\", \x7b\x7d)" := by decide
  have hend : " = pgTable(\"b\", \x7b\x7d)\n" = " = " ++ "pgTable(\"b\", \x7b\x7d)" ++ "\n" := by decide
  have hkeyword : "export const " = "export " ++ "const" ++ " " := by decide
  rw [hany, hbreak, hend, hcall, hkeyword]
  simpa only [Line.pairText, Line.text, Line.printed, String.append_assoc, if_pos] using h

/-- A form that takes the next line, and one that does not. -/
theorem declarations_form_export_asserted_call :
    (declarations "export const a = x!\nexport const b = pgTable(\"b\", \x7b\x7d)\n").map
        Declaration.printed
      = [("a", "const", some "x!\nexport const b = pgTable(\"b\", \x7b\x7d)", some "a")] ∧
    (declarations "export const a = f(x)\nexport const b = pgTable(\"b\", \x7b\x7d)\n").map
        Declaration.printed
      = [("a", "const", some "f(x)", some "a"),
          ("b", "const", some "pgTable(\"b\", \x7b\x7d)", some "b")] := by
  have hword : ∀ s ∈ ["a", "b"], isWordText s.toList = true ∧ s ≠ "enum" := by decide
  have ha := hword "a" (by simp)
  have hb := hword "b" (by simp)
  have hx : tokens "x!" = [⟨.word, "x", 0, 1, 1⟩, ⟨.mark, "!", 1, 2, 1⟩] := by decide +kernel
  have hf : tokens "f(x)" = [⟨.word, "f", 0, 1, 1⟩, ⟨.mark, "(", 1, 2, 1⟩, ⟨.word, "x", 2, 3, 1⟩,
      ⟨.mark, ")", 3, 4, 1⟩] := by decide +kernel
  have hname : Operand [⟨.word, "x", 0, 1, 1⟩] := .name rfl
  have hargs : nesting? 0 [⟨.word, "x", 2, 3, 1⟩] = some 0 := by decide
  constructor
  · have h := declarations_form_export ha.1 ha.2 hb.1 hb.2 (e := "x!") (by decide +kernel)
      (hx ▸ .asserted hname (by decide))
    rw [hx] at h
    exact h
  · have h := declarations_form_export ha.1 ha.2 hb.1 hb.2 (e := "f(x)") (by decide +kernel)
      (hf ▸ .plain (.call rfl (by decide) hargs (by decide)))
    rw [hf] at h
    exact h

/-- A type argument list is taken for a comparison, and the next line for its right side. -/
theorem declarations_typed_ne_two :
    Alone "x as A<B>" ∧ Form (tokens "x as A<B>") ∧
    (declarations "export const a = x as A<B>\nexport const b = pgTable(\"b\", \x7b\x7d)\n").map
        Declaration.printed
      ≠ [("a", "const", some "x as A<B>", some "a"),
          ("b", "const", some "pgTable(\"b\", \x7b\x7d)", some "b")] := by
  refine ⟨by decide +kernel, ?_, by decide +kernel⟩
  have ht : tokens "x as A<B>" = [⟨.word, "x", 0, 1, 1⟩, ⟨.word, "as", 2, 4, 1⟩,
      ⟨.word, "A", 5, 6, 1⟩, ⟨.mark, "<", 6, 7, 1⟩, ⟨.word, "B", 7, 8, 1⟩, ⟨.mark, ">", 8, 9, 1⟩] := by
    decide +kernel
  rw [ht]
  have hname : Operand [⟨.word, "x", 0, 1, 1⟩] := .name rfl
  have hopen : OpenReference 1 [⟨.word, "A", 5, 6, 1⟩, ⟨.mark, "<", 6, 7, 1⟩, ⟨.word, "B", 7, 8, 1⟩] :=
    .argument rfl (by decide) (.name rfl)
  have hclose : ∀ c ∈ [(⟨.mark, ">", 8, 9, 1⟩ : Token)], 0 < closedAngles c := by decide
  exact .typed hname (by decide) (.mk hopen hclose rfl)

end TableRoster.Source
