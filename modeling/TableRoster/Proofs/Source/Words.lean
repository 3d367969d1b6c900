import TableRoster.Proofs.Source.Moved
import TableRoster.Proofs.Source.Complete

/-! # Reading single words, marks and blanks

What the elements of a plain line of source are read into, and the place behind each of them. -/

namespace TableRoster.Source

open Text

/-- A text that is one word. -/
def isWordText : List Char → Bool
  | [] => false
  | c :: r => startsWord c && r.all continuesWord

/-- A character that starts nothing but a word, a number or a mark. -/
def isPlain (c : Char) : Bool :=
  !(['\n', '/', '\x27', '\x22', '\x60'] ++ blanks).contains c

variable {rd : Reader} {w s : List Char}

theorem Element.next_plain {k : Bool} {c : Char} (hc : isPlain c = true) (r : List Char) :
    Element.next k c r = Element.plain c r := by
  simp only [isPlain, List.contains_eq_mem, List.mem_append, Bool.not_eq_true', decide_eq_false_iff_not,
    not_or, List.mem_cons] at hc
  obtain ⟨⟨h1, h2, h3, h4, h5, _⟩, h6⟩ := hc
  have hblank : ¬ blanks.contains c = true := by rwa [List.contains_iff_mem]
  rw [Element.next, if_neg h1, if_neg hblank, if_neg (fun h => h2 h.1), if_neg (fun h => h2 h.1),
    if_neg (fun h => h.elim h3 h4), if_neg h5, regexAt?_of_ne h2]
  rfl

theorem isPlain_of_startsWord {c : Char} (h : startsWord c = true) : isPlain c = true := by
  have hs : (['\n', '/', '\x27', '\x22', '\x60'] ++ blanks).any startsWord = false := by
    decide +kernel
  rw [List.any_eq_false] at hs
  cases hp : isPlain c with
  | true => rfl
  | false =>
      have hm : c ∈ ['\n', '/', '\x27', '\x22', '\x60'] ++ blanks := by
        simpa only [isPlain, Bool.not_eq_false', List.contains_iff_mem] using hp
      exact absurd h (hs c hm)

theorem not_mem_of_isWordText {c : Char} (hs : isWordText s = true) (hc : continuesWord c = false) :
    c ∉ s := by
  cases s with
  | nil => simp
  | cons x r =>
      simp only [isWordText, Bool.and_eq_true, List.all_eq_true] at hs
      rw [List.mem_cons]
      rintro (rfl | hmem)
      · simp only [continuesWord, Bool.or_eq_false_iff] at hc
        simp [startsWord, hc] at hs
      · simp [hs.2 c hmem] at hc

/-! ## One element -/

/-- The token of a class that a text makes. -/
def Reader.tokenOf (rd : Reader) (k : Kind) (s : List Char) : Token :=
  ⟨k, String.ofList s, rd.offset, rd.offset + s.length, rd.line⟩

theorem Reads.word (hs : isWordText s = true) (hw : w.dropWhile continuesWord = w) :
    Reads w rd s [rd.tokenOf .word s] (rd.advance (.token .word) s) := by
  cases s with
  | nil => cases hs
  | cons c r =>
      simp only [isWordText, Bool.and_eq_true, List.all_eq_true] at hs
      refine .cons (x := c :: r) (s := []) (e := .token .word) ?_ (by simp) .nil
      rw [Element.next_plain (isPlain_of_startsWord hs.1), Element.plain, if_pos hs.1, List.nil_append,
        List.dropWhile_append_of_pos hs.2, hw]

theorem Reads.mark {c : Char} (hc : isPlain c = true) (hw : startsWord c = false)
    (hd : isDecimal c = false) (hm : markAt? (c :: w) = some [c]) :
    Reads w rd [c] [rd.tokenOf .mark [c]] (rd.advance (.token .mark) [c]) := by
  refine .cons (x := [c]) (s := []) (e := .token .mark) ?_ (by simp) .nil
  rw [Element.next_plain hc, Element.plain, hw, hd, List.nil_append, hm]
  rfl

theorem Reads.space : Reads w rd [' '] [] (rd.advance .blank [' ']) :=
  .cons (x := [' ']) (s := []) (e := .blank) (by simp [Element.next, blanks]) (by simp) .nil

theorem Reads.lineBreak (hb : rd.behindBreak = false) :
    Reads w rd ['\n'] [rd.tokenOf .lineBreak ['\n']] (rd.advance .lineBreak ['\n']) := by
  have h : Reads w rd ['\n'] ((rd.token? .lineBreak ['\n']).toList ++ [])
      (rd.advance .lineBreak ['\n']) := .cons (s := []) (by simp [Element.next]) (by simp) .nil
  simpa [Reader.token?, Reader.breakToken?_eq, hb, Reader.tokenOf] using h

theorem Reads.spacedWord (hs : isWordText s = true) :
    Reads w rd (s ++ [' ']) [rd.tokenOf .word s]
      ((rd.advance (.token .word) s).advance .blank [' ']) := by
  have hword : Reads ([' '] ++ w) rd s _ _ := .word hs rfl
  simpa using hword.append .space

theorem Reads.spacedEquals :
    Reads w rd ['=', ' '] [rd.tokenOf .mark ['=']]
      ((rd.advance (.token .mark) ['=']).advance .blank [' ']) := by
  have hm : markAt? ('=' :: ' ' :: w) = some ['='] :=
    (markAt?_front (r := []) (by decide)).trans (by decide)
  exact Reads.append (.mark (w := ' ' :: w) (by decide) (by decide) (by decide) hm) .space

/-! ## What a token is read from -/

/-- What makes a token: a line break, a comment with one in it, or an element of the class of the
token. -/
theorem Reader.token?_eq_some {e : Element} {x : List Char} {t : Token} (h : rd.token? e x = some t) :
    (e = .lineBreak ∨ e = .comment ∧ '\n' ∈ x) ∧ rd.breakToken? x = some t ∨
      ∃ k, e = .token k ∧ t = rd.tokenOf k x := by
  cases e with
  | lineBreak => exact .inl ⟨.inl rfl, h⟩
  | comment =>
      simp only [Reader.token?] at h
      split at h
      · exact .inl ⟨.inr ⟨rfl, by rwa [← List.contains_iff_mem]⟩, h⟩
      · cases h
  | token k => exact .inr ⟨k, rfl, (Option.some.inj h).symm⟩
  | blank | stray => cases h

theorem Reader.token?_cases {e : Element} {x : List Char} {t : Token} (h : rd.token? e x = some t) :
    t.isBreak = true ∧ t.stop = rd.offset + 1 ∨ ∃ k, e = .token k ∧ t = rd.tokenOf k x := by
  refine (Reader.token?_eq_some h).imp_left fun ⟨_, hbreak⟩ => ?_
  obtain ⟨-, rfl⟩ := Reader.breakToken?_eq_some hbreak
  exact ⟨rfl, rfl⟩

/-- A token is made by an element of the text. -/
theorem mem_lex {t : Token} (h : t ∈ lex rd s) : ∃ (rd' : Reader) (c : Char) (r x rest : List Char) (e : Element),
    Element.next rd'.regexAllowed c r = (e, rest) ∧ c :: r = x ++ rest ∧ rest.length ≤ r.length ∧
      rd'.offset + (r.length + 1) = rd.offset + s.length ∧ rd'.token? e x = some t := by
  fun_induction lex rd s with
  | case1 => simp at h
  | case2 rd c r found x ih =>
      have hsuf := Element.next_suffix rd.regexAllowed c r
      have hx : x ++ found.2 = c :: r := upTo_append (hsuf.trans (List.suffix_cons c r))
      rw [List.mem_append, Option.mem_toList] at h
      rcases h with h | h
      · exact ⟨rd, c, r, x, found.2, found.1, rfl, hx.symm, hsuf.length_le, by simp, h⟩
      · obtain ⟨rd', c', r', x', rest, e, hn, hsplit, hle, hoff, ht⟩ := ih h
        refine ⟨rd', c', r', x', rest, e, hn, hsplit, hle, ?_, ht⟩
        have hlen := congrArg List.length hx
        simp only [List.length_append, List.length_cons] at hlen ⊢
        simp only [Reader.advance] at hoff
        omega

/-- A token ends within the text. -/
theorem mem_lex_stop {t : Token} (h : t ∈ lex rd s) : t.stop ≤ rd.offset + s.length := by
  obtain ⟨rd', c, r, x, rest, e, _, hsplit, _, hoff, ht⟩ := mem_lex h
  have hlen := congrArg List.length hsplit
  simp only [List.length_append, List.length_cons] at hlen
  rcases Reader.token?_cases ht with ⟨_, hstop⟩ | ⟨_, k, rfl, rfl⟩
  · omega
  · simp only [Reader.tokenOf]
    omega

/-! ## The place behind an element -/

namespace Reader

/-- Behind this place, a slash starts a regular expression, and a line break counts. -/
structure Ready (rd : Reader) : Prop where
  line_pos : 1 ≤ rd.line
  regexAllowed : rd.regexAllowed = true
  behindBreak : rd.behindBreak = false

theorem line_le_advance (rd : Reader) (e : Element) (x : List Char) :
    rd.line ≤ (rd.advance e x).line :=
  Nat.le_add_right _ _

/-- A mark that closes no bracket leaves a place ready. -/
theorem advance_mark_ready (hp : 1 ≤ rd.line) {x : List Char}
    (hc : (rd.tokenOf .mark x).closes = false) : (rd.advance (.token .mark) x).Ready where
  line_pos := Nat.le_trans hp (rd.line_le_advance _ _)
  regexAllowed := by
    have ht : rd.token? (.token .mark) x = some (rd.tokenOf .mark x) := rfl
    simp only [regexAllowed, advance, ht]
    simpa [Option.filter, Token.isBreak, tokenOf] using hc
  behindBreak := rfl

theorem Ready.advance_blank (h : rd.Ready) (x : List Char) : (rd.advance .blank x).Ready :=
  ⟨Nat.le_add_right_of_le h.1, h.2, h.3⟩

/-- What is ready is the start of a text, further on. -/
theorem Ready.moved (h : rd.Ready) : Moved rd.offset (rd.line - 1) start rd where
  offset := (Nat.zero_add _).symm
  line := by have := h.line_pos; simp only [start]; omega
  regexAllowed := h.regexAllowed
  behindBreak := h.behindBreak

end Reader

/-! ## Complete expressions -/

theorem Reads.semicolon (hw : markAt? (';' :: w) = some [';']) :
    Reads w rd [';'] [rd.tokenOf .mark [';']] (rd.advance (.token .mark) [';']) :=
  .mark (by decide) (by decide) (by decide) hw

theorem lex_semicolon (rd : Reader) : lex rd [';'] = [rd.tokenOf .mark [';']] := by
  have hread : Reads [] rd [';'] _ _ := .semicolon (by decide)
  simpa [lex] using hread.lex_append

/-- The tokens of a sealed text are what is read in front of the semicolon. -/
theorem Sealed.reads_start {e : String} (he : Sealed e) :
    ∃ rd, Reads [';'] Reader.start e.toList (tokens e) rd := by
  obtain ⟨line, hread⟩ := he
  have hlex : lex Reader.start (e.toList ++ [';'])
      = tokens e ++ [⟨.mark, ";", e.length, e.length + 1, line⟩] := by
    rw [← hread, tokens, String.toList_append]
    rfl
  have hmem : ⟨.mark, ";", e.length, e.length + 1, line⟩ ∈ lex Reader.start (e.toList ++ [';']) := by
    rw [hlex]
    simp
  obtain ⟨ts, rd, h⟩ := reads_of_mem hmem (by simp [Reader.start, String.length_toList])
  obtain ⟨rfl, _⟩ := List.append_inj' (h.lex_append.symm.trans hlex) (by rw [lex_semicolon]; rfl)
  exact ⟨rd, h⟩

/-- A sealed text is read alike from any place that is ready. -/
theorem Sealed.reads {e : String} (he : Sealed e) (hr : rd.Ready) :
    ∃ l rd', Reads [';'] rd e.toList ((tokens e).map (Token.moved rd.offset l)) rd' := by
  obtain ⟨rd₁, h⟩ := he.reads_start
  obtain ⟨rd', hreads, -⟩ := hr.moved.reads h
  exact ⟨_, rd', hreads⟩

/-- So is a complete expression, and it does not end with a line break. -/
theorem Complete.reads {e : String} (he : Complete e) (hw : Seam w) (hr : rd.Ready) :
    ∃ l rd', Reads w rd e.toList ((tokens e).map (Token.moved rd.offset l)) rd' ∧
      rd'.behindBreak = false := by
  obtain ⟨l, rd', hreads⟩ := he.isSealed.reads hr
  refine ⟨l, rd', hreads.seam hw, ?_⟩
  obtain ⟨t, ht, _⟩ := Option.map_eq_some_iff.1 he.ends
  have hlast := hreads.last
  rw [List.getLast?_map, ht] at hlast
  rw [Reader.behindBreak, hlast]
  exact (he.whole.last_not_isBreak ht : t.isBreak = false)

/-! ## The end of a line -/

/-- A semicolon at the end of a line. -/
theorem seam_semicolon (w : List Char) : Seam (';' :: '\n' :: w) :=
  .intro (by decide) (by simp [afterRegex]) (by simp [afterRegex])

/-- The place behind a semicolon and a line break. -/
def Reader.lineEnd (rd : Reader) : Reader :=
  (rd.advance (.token .mark) [';']).advance .lineBreak ['\n']

theorem Reads.lineEnd : Reads w rd [';', '\n']
    [rd.tokenOf .mark [';'], (rd.advance (.token .mark) [';']).tokenOf .lineBreak ['\n']]
    rd.lineEnd := by
  have hsemi : Reads ('\n' :: w) rd [';'] _ _ := .semicolon (markAt?_front (r := []) (by decide))
  have hbreak : Reads w (rd.advance (.token .mark) [';']) ['\n'] _ _ := .lineBreak rfl
  exact hsemi.append hbreak

/-! ## Complete expressions, moved -/

theorem Token.moved_nest? (o l d : Nat) (t : Token) : (t.moved o l).nest? d = t.nest? d := rfl

theorem Complete.whole_moved {e : String} (he : Complete e) (o l : Nat) :
    Whole 0 ((tokens e).map (Token.moved o l)) :=
  he.whole.map (Token.moved_nest? o l) (fun _ => rfl)

theorem Complete.head?_moved {e : String} (he : Complete e) (o l : Nat) :
    ∃ t, ((tokens e).map (Token.moved o l)).head? = some t ∧ t.isBreak = false ∧ t.start = o := by
  obtain ⟨t, ht, h0⟩ := Option.map_eq_some_iff.1 he.starts
  have hb : t.isBreak = false := he.whole.head_not_isBreak ht
  refine ⟨t.moved o l, by simp [ht], hb, ?_⟩
  simp [Token.moved, h0]

theorem Complete.getLast?_moved {e : String} (he : Complete e) (o l : Nat) :
    ∃ t, (tokens e).getLast? = some t ∧
      ((tokens e).map (Token.moved o l)).getLast? = some (t.moved o l) ∧
      (t.moved o l).isBreak = false ∧ (t.moved o l).stop = o + e.length := by
  obtain ⟨t, ht, h0⟩ := Option.map_eq_some_iff.1 he.ends
  have hb : t.isBreak = false := he.whole.last_not_isBreak ht
  refine ⟨t, ht, by simp [ht], hb, ?_⟩
  simp [Token.moved, h0, Nat.add_comm]

end TableRoster.Source
