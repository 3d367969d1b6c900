import TableRoster.Proofs.Source.Margins
import TableRoster.Proofs.Source.RoundTrip

/-! # Declarations over several lines

Between the parts of a declaration, blanks and line breaks may stand. They are passed over behind the
keyword and behind the equals sign, but a line break in front of the equals sign ends the binding, and
the name has no initializer. -/

namespace TableRoster.Source

open Text

variable {rd : Reader} {s w : List Char} {t e kw name eq : Token} {b b₀ : Option Token}
  {us : List Token} {x : String}

/-! ## Blanks and line breaks -/

/-- A text of blanks and line breaks. -/
def IsGap (s : List Char) : Prop :=
  ∀ c ∈ s, c = ' ' ∨ c = '\n'

instance (s : List Char) : Decidable (IsGap s) :=
  inferInstanceAs (Decidable (∀ c ∈ s, c = ' ' ∨ c = '\n'))

theorem IsGap.apart_of_ne_nil (hs : IsGap s) (hne : s ≠ []) (w : List Char) : Apart (s ++ w) := by
  obtain ⟨c, s, rfl⟩ := List.exists_cons_of_ne_nil hne
  rcases hs c List.mem_cons_self with rfl | rfl <;> rfl

theorem IsGap.apart (hs : IsGap s) (hw : Apart w) : Apart (s ++ w) := by
  by_cases hne : s = []
  · exact hne ▸ hw
  · exact hs.apart_of_ne_nil hne w

/-- Behind a line break, another one makes no token. -/
theorem Reads.lineBreak_behind (hb : rd.behindBreak = true) :
    Reads w rd ['\n'] [] (rd.advance .lineBreak ['\n']) := by
  have h : Reads w rd ['\n'] ((rd.token? .lineBreak ['\n']).toList ++ [])
      (rd.advance .lineBreak ['\n']) := .cons (s := []) (by simp [Element.next]) (by simp) .nil
  simpa [Reader.token?, Reader.breakToken?_eq, hb] using h

/-- A gap makes one line break at most, and one if it holds any and none stands before it. -/
theorem reads_gap (hs : IsGap s) (rd : Reader) :
    ∃ (b : Option Token) (rd' : Reader), (∀ w, Reads w rd s b.toList rd') ∧ IsStart b ∧
      (b = none ↔ rd.behindBreak = true ∨ '\n' ∉ s) := by
  induction s generalizing rd with
  | nil => exact ⟨none, rd, fun _ => .nil, isStart_none, by simp⟩
  | cons c s ih =>
      obtain ⟨hc, htail⟩ := List.forall_mem_cons.1 hs
      rcases hc with rfl | rfl
      · obtain ⟨b, rd', hr, hb, hnone⟩ := ih htail (rd.advance .blank [' '])
        have hsame : (rd.advance .blank [' ']).behindBreak = rd.behindBreak := rfl
        exact ⟨b, rd', fun w => Reads.space.append (hr w), hb, by simp [hnone, hsame]⟩
      · obtain ⟨b, rd', hr, hb, hnone⟩ := ih htail (rd.advance .lineBreak ['\n'])
        cases hbehind : rd.behindBreak with
        | true =>
            have hsame : (rd.advance .lineBreak ['\n']).behindBreak = true := by
              rw [Reader.advance_behindBreak, Reader.token?, Reader.breakToken?_eq, hbehind]
              rfl
            obtain rfl := hnone.2 (.inl hsame)
            exact ⟨none, rd', fun w => (Reads.lineBreak_behind hbehind).append (hr w), hb, by simp⟩
        | false =>
            have hbreak : (rd.advance .lineBreak ['\n']).behindBreak = true := by
              rw [Reader.advance_behindBreak, Reader.token?, Reader.breakToken?_eq, hbehind]
              rfl
            obtain rfl := hnone.2 (.inl hbreak)
            exact ⟨some _, rd', fun w => (Reads.lineBreak hbehind).append (hr w),
              isStart_some rfl, by simp⟩

theorem IsStart.breaks (hb : IsStart b) : Breaks b.toList := by
  cases b with
  | none => exact Joins.nil
  | some t => exact breaks_single t (hb t rfl)

/-- A complete expression is read alike behind a line break. -/
theorem Complete.lex_append {i : String} (hi : Complete i) (hw : Seam w) (hp : 1 ≤ rd.line)
    (hr : rd.regexAllowed = true) :
    ∃ l rd', lex rd (i.toList ++ w) = (tokens i).map (Token.moved rd.offset l) ++ lex rd' w := by
  let rd₀ : Reader := { rd with last := none }
  have hready : rd₀.Ready := ⟨hp, hr, rfl⟩
  obtain ⟨l, rd', hread, -⟩ := hi.reads hw hready
  have hmoved : Token.moved 0 0 = id := rfl
  refine ⟨l, rd', ?_⟩
  rw [← hread.lex_append]
  cases hb : rd.behindBreak with
  | false =>
      have hsame : Reader.Moved 0 0 rd₀ rd := ⟨rfl, rfl, rfl, hb⟩
      rw [hsame.lex, hmoved, List.map_id]
  | true =>
      have hoffset : rd.offset = rd₀.offset + 0 := rfl
      have hline : rd.line = rd₀.line + 0 := rfl
      obtain ⟨bs, ts, hts, hbs, hlex⟩ := Reader.lex_behindBreak hoffset hline rfl hb (i.toList ++ w)
      obtain ⟨first, hfirst, hbreak, -⟩ := hi.head?_moved rd.offset l
      have hnil : bs = [] := by
        cases bs with
        | nil => rfl
        | cons t bs =>
            have hhead := congrArg List.head? (hread.lex_append.symm.trans hts)
            rw [List.head?_append, hfirst] at hhead
            obtain rfl : first = t := by simpa using hhead
            simp [hbs first List.mem_cons_self] at hbreak
      rw [hlex, hmoved, List.map_id, hts, hnil, List.nil_append]

/-! ## The tokens of a binding -/

theorem skipBreaks_isStart (hb : IsStart b) (ht : t.isBreak = false) (before : Option Token)
    (us : List Token) :
    skipBreaks (place before (b.toList ++ t :: us)) = place (b.or before) (t :: us) := by
  cases b with
  | none => exact skipBreaks_place_cons ht us
  | some n =>
      have hskip : skipBreaks (place (some n) (t :: us)) = place (some n) (t :: us) :=
        skipBreaks_place_cons ht us
      simpa [skipBreaks, place, hb n rfl] using hskip

/-- An initializer goes on behind a line break that follows the equals sign. -/
theorem splitExpression_equals (heq : eq.isEquals) (hb : IsStart b) (us : List Token) (hus : us ≠ []) :
    splitExpression 0 (place (some eq) (b.toList ++ us))
      = (b.toList ++ (splitExpression 0 (place (b.or (some eq)) us)).1,
          (splitExpression 0 (place (b.or (some eq)) us)).2) := by
  cases b with
  | none => rfl
  | some n =>
      obtain ⟨hk, ht⟩ := heq
      have hn : n.kind = .lineBreak := by simpa [Token.isBreak] using hb n rfl
      obtain ⟨t, us, rfl⟩ := List.exists_cons_of_ne_nil hus
      have hmore : (Placed.mk (some eq) n (some t)).continuesLine false = true := by
        simp [Placed.continuesLine, Placed.asksForMore, Token.isMarkOf, marksBeforeMore, hk, ht]
      rw [Option.toList_some, List.singleton_append, place, splitExpression]
      simp [Token.opens, Token.closes, Token.isMarkOf, hn, hmore]

theorem extentOf_breaks (hb : IsStart b) (ts : List Token) : extentOf (b.toList ++ ts) = extentOf ts := by
  cases b with
  | none => rfl
  | some n => simp [extentOf, hb n rfl]

/-- The bindings of an exported constant are taken from its name on. -/
theorem Exports.statements_gap (h : Exports x e kw name) (hne : x ≠ "enum") (hb : IsStart b)
    {bound : List Binding} {rest : List Placed}
    (hbound : bindings (place (b.or (some kw)) (name :: us)) = (bound, rest)) :
    Source.statements 0 (place none (e :: kw :: (b.toList ++ name :: us)))
      = .bindings true "const" bound :: Source.statements 0 rest := by
  have hx : ∀ t, some e = some t → t.isExport := by
    rintro _ ⟨⟩
    exact h.isExport
  have hskip := skipBreaks_isStart hb (Token.isBreak_of_word h.name_kind) (some kw) us
  have henum : nextIs (skipBreaks (place (some kw) (b.toList ++ name :: us))) "enum" = false := by
    rw [hskip]
    simp [nextIs, place, Token.is_of_word h.name_kind, h.name_text, hne]
  have hs := statements_keyword isStart_none hx h.keyword henum (hskip ▸ hbound)
  rw [h.keyword_text] at hs
  exact hs

/-- A binding with an equals sign right behind its name is taken up to the semicolon. -/
theorem statements_spread {semi nl : Token} (hexports : Exports x e kw name) (hne : x ≠ "enum")
    (hb₀ : IsStart b₀) (heq : eq.isEquals) (hb : IsStart b) (hus : Whole 0 us)
    (hsemi : semi.isMarkOf [";"] = true) (hnl : nl.isBreak = true) :
    statements 0 (place none (e :: kw :: (b₀.toList ++ name :: eq :: (b.toList ++ (us ++ [semi, nl])))))
      = [.bindings true "const" [⟨x, name.line, extentOf us⟩]] := by
  have hmark : semi.kind = .mark ∧ semi.text = ";" := by simpa [Token.isMarkOf] using hsemi
  have hsplit : splitExpression 0 (place (some eq) (b.toList ++ (us ++ [semi, nl]))) = _ :=
    splitExpression_equals heq hb _ (by simp)
  rw [splitExpression_front hus (t := semi) (by simp [Token.isMarkOf, hmark]) (b.or (some eq)) [nl]]
    at hsplit
  have hi : Initializes eq (b.toList ++ (us ++ [semi, nl])) (b.toList ++ us) _ :=
    ⟨hsplit, by simp [nextIs, place, Token.is, hmark]⟩
  rw [hexports.statements_gap hne hb₀ (bindings_initializes hexports.name_kind heq hi),
    extentOf_breaks hb, hexports.name_text, statements_skip, statements_skip_break hnl, place, statements]
  all_goals simp [Token.opens, Token.closes, Token.isMarkOf, hmark]

/-- A binding with anything else behind its name has no initializer. -/
theorem statements_cut (hexports : Exports x e kw name) (hne : x ≠ "enum") (hb : IsStart b)
    (ht : ∀ text ∈ ["!", ":", "=", ","], t.is text = false) :
    ∃ ss, statements 0 (place none (e :: kw :: (b.toList ++ name :: t :: us)))
      = .bindings true "const" [⟨x, name.line, none⟩] :: ss := by
  have hcomma : nextIs (place (some name) (t :: us)) "," = false := by
    simp [nextIs, place, ht]
  have hbare := binding?_bare hexports.name_kind (fun text h => ht text (List.mem_append_left [","] h))
    (b.or (some kw)) us
  rw [hexports.statements_gap hne hb (bindings_last hexports.name_kind hbare hcomma), hexports.name_text]
  exact ⟨_, rfl⟩

/-! ## Reading a binding -/

/-- An exported constant is read up to the gap behind its name. -/
theorem reads_front {s₀ s₁ : List Char} (hx : isWordText x.toList = true) (h₀ : IsGap s₀)
    (hne : s₀ ≠ []) (h₁ : IsGap s₁) (hw : Apart w) :
    ∃ e kw name b₀ b₁ rd, Reads w .start ("export const".toList ++ (s₀ ++ (x.toList ++ s₁)))
        (e :: kw :: (b₀.toList ++ name :: b₁.toList)) rd ∧ Exports x e kw name ∧ IsStart b₀ ∧
      IsStart b₁ ∧ (b₁ = none ↔ '\n' ∉ s₁) ∧ 1 ≤ rd.line := by
  have hgap : Apart (s₀ ++ (x.toList ++ s₁) ++ w) := by
    rw [List.append_assoc]
    exact h₀.apart_of_ne_nil hne _
  have hopening : Reads (s₀ ++ (x.toList ++ s₁) ++ w) .start
      ("export".toList ++ [' '] ++ "const".toList) [_, _] _ :=
    (Reads.spacedWord (by decide)).append (.word (by decide) hgap.dropWhile)
  obtain ⟨b₀, rd₁, hr₀, hb₀, -⟩ := reads_gap h₀ _
  have hname : Reads (s₁ ++ w) rd₁ x.toList [_] _ := .word hx (h₁.apart hw).dropWhile
  obtain ⟨b₁, rd₂, hr₁, hb₁, hnone⟩ := reads_gap h₁ (rd₁.advance (.token .word) x.toList)
  have hread := hopening.append ((hr₀ _).append (hname.append (hr₁ w)))
  have hbehind : (rd₁.advance (.token .word) x.toList).behindBreak = false := rfl
  have htext : "export const".toList = "export".toList ++ [' '] ++ "const".toList := by decide
  refine ⟨_, _, _, b₀, b₁, rd₂, htext ▸ hread, ⟨⟨rfl, by decide⟩, by decide, by decide, rfl,
    String.ofList_toList⟩, hb₀, hb₁, by simp [hnone, hbehind], hread.line_le⟩

/-- A mark that starts with an equals sign is this sign alone in front of anything but another sign that
goes on with it. -/
theorem markAt?_equals (hw : w.head? ∉ [some '=', some '>']) : markAt? ('=' :: w) = some ['='] := by
  have hlone : markAt? ['='] = some ['='] := by decide
  cases w with
  | nil => exact hlone
  | cons d w =>
      have hall : ∀ m ∈ marks, m.head? = some '=' → m[1]? ∈ [none, some '=', some '>'] := by decide
      refine (markAt?_append (s := ['=']) (d := d) (v := w) fun m hm hprefix => ?_).trans hlone
      obtain ⟨r, rfl⟩ := hprefix
      have hmem := hall _ hm rfl
      simp at hmem hw
      tauto

/-- In front of such a sign it is a part of a longer mark. -/
theorem markAt?_longer {d : Char} (hd : d ∈ ['=', '>']) (w : List Char) :
    ∃ m ∈ ["==", "===", "=>"], markAt? ('=' :: d :: w) = some m.toList := by
  simp only [List.mem_cons, List.not_mem_nil, or_false] at hd
  rcases hd with rfl | rfl
  · rcases w with _ | ⟨c, w⟩
    · exact ⟨"==", by decide, by decide⟩
    · by_cases hc : c = '='
      · exact ⟨"===", by decide, by simp [markAt?, marks, List.isPrefixOf, hc]⟩
      · exact ⟨"==", by decide, by simp [markAt?, marks, List.isPrefixOf, Ne.symm hc]⟩
  · exact ⟨"=>", by decide, by simp [markAt?, marks, List.isPrefixOf]⟩

theorem lex_longer {d : Char} (hd : d ∈ ['=', '>']) (rd : Reader) (w : List Char) :
    ∃ t us, lex rd ('=' :: d :: w) = t :: us ∧ t.text ∈ ["==", "===", "=>"] := by
  obtain ⟨m, hm, hmark⟩ := markAt?_longer hd w
  have hnext : Element.next rd.regexAllowed '=' (d :: w)
      = (.token .mark, (d :: w).drop (m.toList.length - 1)) := by
    rw [Element.next_plain (by decide), Element.plain, if_neg (by decide), if_neg (by decide), hmark]
  have hsplit : '=' :: d :: w = m.toList ++ (d :: w).drop (m.toList.length - 1) := by
    obtain ⟨r, hr⟩ := isPrefix_of_markAt? hmark
    have hlength : m.toList.length = m.toList.length - 1 + 1 := by
      have hall : ∀ m ∈ ["==", "===", "=>"], m.toList.length = m.toList.length - 1 + 1 := by decide
      exact hall m hm
    rw [← List.drop_succ_cons (a := '='), ← hlength, ← hr, List.drop_left]
  rw [lex]
  simp only [hnext, upTo_of_append hsplit]
  exact ⟨_, _, rfl, by simpa [Reader.token?] using hm⟩

/-! ## What a binding over several lines declares -/

/-- An exported constant with gaps behind its keyword, its name and its equals sign. -/
def spreadText (x i s₀ s₁ s₂ : String) : String :=
  "export const" ++ s₀ ++ x ++ s₁ ++ "=" ++ s₂ ++ i ++ ";\n"

variable {i s₀ s₁ s₂ : String}

theorem toList_spreadText (x i s₀ s₁ s₂ : String) : (spreadText x i s₀ s₁ s₂).toList
    = ("export const".toList ++ (s₀.toList ++ (x.toList ++ s₁.toList)))
      ++ '=' :: (s₂.toList ++ (i.toList ++ [';', '\n'])) := by
  have hend : ";\n".toList = [';', '\n'] := by decide
  unfold spreadText
  generalize "export const" = opening
  rw [String.toList_append, hend]
  simp

theorem printed_declarations_cut {text : String} {line : Nat} {ss : List Statement}
    (h : statementsOf text = .bindings true "const" [⟨x, line, none⟩] :: ss) :
    ∃ ds, (declarations text).map Declaration.printed = (x, "const", none, some x) :: ds := by
  rw [declarations, h, List.flatMap_cons, List.map_append]
  exact ⟨_, rfl⟩

/-- Without a line break in front of the equals sign, the name is declared with its initializer. -/
theorem declarations_spread (hx : isWordText x.toList = true) (hne : x ≠ "enum") (hi : Complete i)
    (h₀ : IsGap s₀.toList) (hne₀ : s₀ ≠ "") (h₁ : IsGap s₁.toList) (h₂ : IsGap s₂.toList)
    (hbreak : '\n' ∉ s₁.toList) (hsign : s₂ = "" → i.toList.head? ∉ [some '=', some '>']) :
    (declarations (spreadText x i s₀ s₁ s₂)).map Declaration.printed = [(x, "const", some i, some x)] := by
  let value := s₂.toList ++ (i.toList ++ [';', '\n'])
  obtain ⟨e, kw, name, b₀, b₁, rd₁, hfront, hexports, hb₀, hb₁, hnone, hline⟩ :=
    reads_front (w := '=' :: value) hx h₀ (by simpa using hne₀) h₁ rfl
  obtain rfl := hnone.2 hbreak
  have hhead : value.head? ∉ [some '=', some '>'] := by
    cases hs : s₂.toList with
    | cons c s =>
        rcases h₂ c (by simp [hs]) with rfl | rfl <;> simp [value, hs]
    | nil =>
        have hempty : s₂ = "" := by simpa using hs
        cases hi : i.toList with
        | nil => simp [value, hs, hi]
        | cons c r => simpa [value, hs, hi] using hsign hempty
  have hequals : Reads value rd₁ ['='] [rd₁.tokenOf .mark ['=']] _ :=
    .mark (by decide) (by decide) (by decide) (markAt?_equals hhead)
  have hready := Reader.advance_mark_ready (x := ['=']) hline rfl
  obtain ⟨b₂, rd₂, hgap, hb₂, -⟩ := reads_gap h₂ (rd₁.advance (.token .mark) ['='])
  have hregex : rd₂.regexAllowed = true :=
    ((hgap []).regexAllowed_of_breaks hb₂.breaks).trans hready.regexAllowed
  obtain ⟨l, rd₃, hinit⟩ := hi.lex_append (seam_semicolon [])
    (Nat.le_trans hready.line_pos (hgap []).line_le) hregex
  have hend : lex rd₃ [';', '\n'] = [rd₃.tokenOf .mark [';'],
      (rd₃.advance (.token .mark) [';']).tokenOf .lineBreak ['\n']] := by
    have hlast : Reads [] rd₃ [';', '\n'] _ _ := .lineEnd
    simpa [lex] using hlast.lex_append
  have htokens : tokens (spreadText x i s₀ s₁ s₂) = e :: kw :: (b₀.toList ++ name ::
      rd₁.tokenOf .mark ['='] :: (b₂.toList ++ ((tokens i).map (Token.moved rd₂.offset l)
        ++ [rd₃.tokenOf .mark [';'], (rd₃.advance (.token .mark) [';']).tokenOf .lineBreak ['\n']]))) := by
    have hvalue : lex rd₁ ('=' :: value) = _ := hequals.lex_append
    rw [tokens, toList_spreadText, hfront.lex_append, hvalue, (hgap _).lex_append, hinit, hend]
    simp
  have heq : (rd₁.tokenOf .mark ['=']).isEquals := ⟨rfl, rfl⟩
  have hsemi : (rd₃.tokenOf .mark [';']).isMarkOf [";"] = true := rfl
  have hnl : ((rd₃.advance (.token .mark) [';']).tokenOf .lineBreak ['\n']).isBreak = true := rfl
  have hstatements := statements_spread hexports hne hb₀ heq hb₂ (hi.whole_moved rd₂.offset l) hsemi hnl
  obtain ⟨first, hfirst, hfirstBreak, hstart⟩ := hi.head?_moved rd₂.offset l
  obtain ⟨last, -, hlast, hlastBreak, hstop⟩ := hi.getLast?_moved rd₂.offset l
  rw [extentOf_eq hfirst hfirstBreak hlast hlastBreak, hstart, hstop] at hstatements
  have hslice : slice (spreadText x i s₀ s₁ s₂).toList rd₂.offset (rd₂.offset + i.length) = i := by
    let front := "export const".toList ++ (s₀.toList ++ (x.toList ++ s₁.toList)) ++ '=' :: s₂.toList
    have hoffset : rd₂.offset = front.length := by
      rw [(hgap []).offset, hequals.offset, hfront.offset]
      simp [front, Reader.start]
      omega
    rw [hoffset, toList_spreadText]
    simpa [front] using slice_append front i [';', '\n']
  have hstands : List.Forall₂ (Line.Stands (spreadText x i s₀ s₁ s₂).toList) [⟨true, "const", x, i⟩]
      (statementsOf (spreadText x i s₀ s₁ s₂)) := by
    rw [statementsOf, htokens, hstatements]
    exact .cons ⟨_, _, _, rfl, hslice⟩ .nil
  exact declarations_of_stands hstands

/-- Otherwise the name is declared without one. -/
theorem declarations_spread_cut (hx : isWordText x.toList = true) (hne : x ≠ "enum")
    (h₀ : IsGap s₀.toList) (hne₀ : s₀ ≠ "") (h₁ : IsGap s₁.toList)
    (h : '\n' ∈ s₁.toList ∨ s₂ = "" ∧ i.toList.head? ∈ [some '=', some '>']) :
    ∃ ds, (declarations (spreadText x i s₀ s₁ s₂)).map Declaration.printed
      = (x, "const", none, some x) :: ds := by
  let value := s₂.toList ++ (i.toList ++ [';', '\n'])
  obtain ⟨e, kw, name, b₀, b₁, rd, hfront, hexports, hb₀, hb₁, hnone, -⟩ :=
    reads_front (w := '=' :: value) hx h₀ (by simpa using hne₀) h₁ rfl
  have htokens : tokens (spreadText x i s₀ s₁ s₂)
      = e :: kw :: (b₀.toList ++ name :: (b₁.toList ++ lex rd ('=' :: value))) := by
    rw [tokens, toList_spreadText, hfront.lex_append]
    simp [value]
  obtain ⟨t, us, hrest, ht⟩ : ∃ t us, b₁.toList ++ lex rd ('=' :: value) = t :: us ∧
      ∀ text ∈ ["!", ":", "=", ","], t.is text = false := by
    cases b₁ with
    | some n =>
        have hn : n.kind = .lineBreak := by simpa [Token.isBreak] using hb₁ n rfl
        exact ⟨n, _, rfl, by simp [Token.is, hn]⟩
    | none =>
        obtain ⟨rfl, hsign⟩ := h.resolve_left (hnone.1 rfl)
        obtain ⟨d, hd, r, hr⟩ : ∃ d ∈ ['=', '>'], ∃ r, i.toList = d :: r := by
          cases hi : i.toList with
          | nil => simp [hi] at hsign
          | cons d r => exact ⟨d, by simpa [hi] using hsign, r, rfl⟩
        obtain ⟨t, us, hlex, htext⟩ := lex_longer hd rd (r ++ [';', '\n'])
        refine ⟨t, us, by simpa [value, hr] using hlex, fun text hmem => ?_⟩
        have hother : ∀ m ∈ ["==", "===", "=>"], ∀ text ∈ ["!", ":", "=", ","], (m == text) = false := by
          decide
        simp [Token.is, hother _ htext text hmem]
  obtain ⟨ss, hss⟩ := statements_cut hexports hne hb₀ ht
  exact printed_declarations_cut (by rw [statementsOf, htokens, hrest, hss])

/-- A binding over several lines declares its name with its initializer just if no line break stands
in front of the equals sign, and the sign is a mark of its own. -/
theorem declarations_spread_iff (hx : isWordText x.toList = true) (hne : x ≠ "enum") (hi : Complete i)
    (h₀ : IsGap s₀.toList) (hne₀ : s₀ ≠ "") (h₁ : IsGap s₁.toList) (h₂ : IsGap s₂.toList) :
    (declarations (spreadText x i s₀ s₁ s₂)).map Declaration.printed = [(x, "const", some i, some x)] ↔
      '\n' ∉ s₁.toList ∧ (s₂ = "" → i.toList.head? ∉ [some '=', some '>']) := by
  constructor
  · intro h
    by_contra hcut
    have hcase : '\n' ∈ s₁.toList ∨ s₂ = "" ∧ i.toList.head? ∈ [some '=', some '>'] := by tauto
    obtain ⟨ds, hds⟩ := declarations_spread_cut hx hne h₀ hne₀ h₁ hcase
    simp [hds] at h
  · rintro ⟨hbreak, hsign⟩
    exact declarations_spread hx hne hi h₀ hne₀ h₁ h₂ hbreak hsign

/-- Line breaks on both sides of the name and of its initializer, but for one place. -/
theorem declarations_spread_iff_call :
    (declarations (spreadText "users" "pgTable(\"users\", \x7b\n\x7d)" "\n\n" " " "\n  ")).map
        Declaration.printed
      = [("users", "const", some "pgTable(\"users\", \x7b\n\x7d)", some "users")] :=
  (declarations_spread_iff (by decide) (by decide) (by decide +kernel) (by simp [IsGap]) (by decide)
    (by simp [IsGap]) (by simp [IsGap])).2 ⟨by simp, by simp⟩

/-- A line break in front of the equals sign takes the initializer away. -/
theorem declarations_spread_ne_broken : Complete "1" ∧
    (declarations (spreadText "x" "1" " " "\n" " ")).map Declaration.printed
      ≠ [("x", "const", some "1", some "x")] := by
  refine ⟨by decide +kernel, by decide +kernel⟩

end TableRoster.Source
