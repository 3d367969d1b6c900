import TableRoster.Proofs.Source.Element
import TableRoster.Proofs.Source.Words

/-! # Holes of templates

A hole of a template is passed over by a search for its closing brace that tells fewer things apart
than reading does. The two agree on where the hole ends, unless a regular expression in it looks like
something else. -/

namespace TableRoster.Source

open Text

variable {n m : Nat} {fs : List Frame} {c : Char} {r s x w : List Char} {rd rd' : Reader}

/-! ## Stretches of a hole -/

theorem afterTemplate_nil (fs : List Frame) : afterTemplate fs [] = [] := by
  cases fs <;> rw [afterTemplate]

/-- What is open further out is closed afterwards. -/
theorem afterTemplate_frames (fs gs : List Frame) (s : List Char) :
    afterTemplate (fs ++ gs) s = afterTemplate gs (afterTemplate fs s) := by
  fun_induction afterTemplate fs s
  case case1 => rfl
  case case2 | case3 | case8 => simp [afterTemplate, afterTemplate_nil]
  case case18 h1 h2 hq ih => simpa [afterTemplate_hole h1 h2, hq] using ih
  case case19 ih | case20 ih | case21 ih | case22 ih => simpa [afterTemplate_hole] using ih
  case case23 h1 h2 hq hc hb hb' ih =>
    simpa [afterTemplate_hole h1 h2, hq, hc, hb, hb'] using ih
  all_goals simp_all [afterTemplate]

/-- The characters that a hole does not pass over wherever they stand. -/
def loudChars : List Char :=
  quotes ++ ['\x7b', '\x7d', '/']

theorem hole_dull (hc : c ∉ loudChars) (r : List Char) :
    afterTemplate (.hole n :: fs) (c :: r) = afterTemplate (.hole n :: fs) r := by
  simp only [loudChars, quotes, List.mem_cons, List.mem_append, List.not_mem_nil, or_false,
    not_or] at hc
  obtain ⟨⟨h1, h2, h3⟩, h4, h5, h6⟩ := hc
  rw [afterTemplate_hole (fun _ h => absurd h h6) (fun _ h => absurd h h6)]
  simp [h1, h2, h3, h4, h5]

theorem hole_dulls (hx : ∀ c ∈ x, c ∉ loudChars) (r : List Char) :
    afterTemplate (.hole n :: fs) (x ++ r) = afterTemplate (.hole n :: fs) r := by
  induction x with
  | nil => rfl
  | cons c x ih =>
      obtain ⟨hc, hx⟩ := List.forall_mem_cons.1 hx
      rw [List.cons_append, hole_dull hc, ih hx]

/-- A slash that opens no comment. -/
theorem hole_slash (hr : ∀ d ∈ ['/', '*'], r.head? ≠ some d) :
    afterTemplate (.hole n :: fs) ('/' :: r) = afterTemplate (.hole n :: fs) r := by
  rw [afterTemplate_hole]
  · simp
  · rintro s - rfl
    exact hr '/' (by simp) rfl
  · rintro s - rfl
    exact hr '*' (by simp) rfl

theorem hole_string (q : Char) (r : List Char) :
    afterTemplate (.string q :: .hole n :: fs) r
      = afterTemplate (.hole n :: fs) (afterString q r) := by
  fun_induction afterString q r with
  | case1 | case2 => simp [afterTemplate]
  | case3 c r ih => simpa [afterTemplate] using ih
  | case4 r h1 h2 => simp [afterTemplate]
  | case5 r h1 h2 hq => rw [hole_dull (by decide)]; simp [afterTemplate]
  | case6 c r h1 h2 hq hn ih =>
      have h3 := ne_backslash h1 h2
      simpa [afterTemplate, h3, hq, hn] using ih

theorem hole_line (r : List Char) : afterTemplate (.line :: .hole n :: fs) r
    = afterTemplate (.hole n :: fs) (afterLine r) := by
  induction r with
  | nil => simp [afterTemplate, afterLine]
  | cons c r ih =>
      by_cases hc : c = '\n'
      · subst hc
        rw [afterTemplate, if_pos rfl, afterLine, List.dropWhile_cons_of_neg (by simp),
          hole_dull (by decide)]
      · rw [afterTemplate, if_neg hc, ih, afterLine, afterLine, List.dropWhile_cons_of_pos (by simpa)]

theorem hole_comment (r : List Char) : afterTemplate (.comment :: fs) r
    = afterTemplate fs (afterComment r) := by
  fun_induction afterComment r with
  | case1 => simp [afterTemplate, afterTemplate_nil]
  | case2 r => rw [afterTemplate]
  | case3 c r h ih => rw [afterTemplate, ih]; exact h

/-- A row in which no slash opens a comment. -/
theorem hole_slashes (hx : ∀ c ∈ x, c ∉ loudChars ∨ c = '/')
    (hs : ∀ i < x.length, (x ++ r)[i]? = some '/' → ∀ d ∈ ['/', '*'], (x ++ r)[i + 1]? ≠ some d) :
    afterTemplate (.hole n :: fs) (x ++ r) = afterTemplate (.hole n :: fs) r := by
  induction x with
  | nil => rfl
  | cons c x ih =>
      obtain ⟨hc, hx⟩ := List.forall_mem_cons.1 hx
      have hrest := ih hx fun i hi => by
        simpa using hs (i + 1) (by simpa using hi)
      rw [List.cons_append]
      rcases hc with hc | rfl
      · rw [hole_dull hc, hrest]
      · rw [hole_slash, hrest]
        simpa [List.head?_eq_getElem?] using hs 0 (by simp)

theorem hole_dropWhile {p : Char → Bool} (hp : loudChars.any p = false) (r : List Char) :
    afterTemplate (.hole n :: fs) (r.dropWhile p) = afterTemplate (.hole n :: fs) r := by
  induction r with
  | nil => rfl
  | cons c r ih =>
      rw [List.dropWhile_cons]
      split
      · rename_i hc
        rw [ih, hole_dull]
        intro hloud
        exact absurd hc (List.any_eq_false.1 hp c hloud)
      · rfl

/-! ## Elements of a hole -/

def openedBraces : Token → Nat :=
  Token.countOf ["\x7b"]

def closedBraces : Token → Nat :=
  Token.countOf ["\x7d"]

/-- A mark is a brace, or a row of dull characters, of which the first may be a slash instead. -/
theorem mark_cases : ∀ x ∈ marks, x = ['\x7b'] ∨ x = ['\x7d'] ∨
    String.ofList x ∉ ["\x7b", "\x7d"] ∧ x.tail.all (· ∉ loudChars) = true ∧
      x.head?.all (fun c => c ∉ loudChars ∨ c = '/') = true := by
  decide

theorem hole_mark {rest : List Char} (hb : Bare c r) (hmem : x ∈ marks) (hx : c :: r = x ++ rest)
    (hn : (rd.tokenOf .mark x).tally? openedBraces closedBraces n = some m) :
    afterTemplate (.hole n :: fs) (c :: r) = afterTemplate (.hole m :: fs) rest := by
  simp only [Token.tally?, openedBraces, closedBraces, Token.countOf, Token.isMarkOf,
    Reader.tokenOf] at hn
  rcases mark_cases x hmem with rfl | rfl | ⟨htext, htail, hhead⟩
  · obtain ⟨rfl, rfl⟩ := List.cons.inj hx
    obtain rfl : n + 1 = m := by simpa using hn
    simp [afterTemplate_hole]
  · obtain ⟨rfl, rfl⟩ := List.cons.inj hx
    obtain ⟨hpos, hn⟩ : 1 ≤ n ∧ n - 1 = m := by simpa using hn
    obtain rfl : n = m + 1 := by omega
    simp [afterTemplate_hole]
  · obtain rfl : n = m := by
      simp only [List.mem_cons, List.not_mem_nil, or_false, not_or] at htext
      simpa [htext] using hn
    cases x with
    | nil => exact absurd hmem (by decide)
    | cons d y =>
        rw [List.cons_append] at hx
        obtain ⟨rfl, rfl⟩ := List.cons.inj hx
        have hy : ∀ a ∈ y, a ∉ loudChars := by simpa using htail
        have hd : c ∉ loudChars ∨ c = '/' := by simpa using hhead
        rcases hd with hd | rfl
        · rw [hole_dull hd, hole_dulls hy]
        · rw [hole_slash (hb.not_comment rfl), hole_dulls hy]

/-! ## Regular expressions in a hole -/

/-- A regular expression that looks like nothing else: it holds no quote and no brace, and no slash
of it has a slash or a star behind it. -/
structure Token.Clear (source : List Char) (t : Token) : Prop where
  dull : ∀ c ∈ t.text.toList, c ∉ loudChars ∨ c = '/'
  slash : ∀ i < t.stop, t.start ≤ i → source[i]? = some '/' →
    ∀ d ∈ ['/', '*'], source[i + 1]? ≠ some d

instance (source : List Char) (t : Token) : Decidable (t.Clear source) :=
  decidable_of_iff ((t.text.toList.all fun c => c ∉ loudChars ∨ c = '/') = true ∧
      ∀ i < t.stop, (t.start ≤ i ∧ source[i]? = some '/') →
        (['/', '*'].all fun d => source[i + 1]? ≠ some d) = true)
    ⟨fun ⟨hd, hs⟩ => ⟨fun c hc => of_decide_eq_true (List.all_eq_true.1 hd c hc),
        fun i hi hle hslash d hd => of_decide_eq_true (List.all_eq_true.1 (hs i hi ⟨hle, hslash⟩) d hd)⟩,
      fun h => ⟨List.all_eq_true.2 fun c hc => decide_eq_true (h.dull c hc),
        fun i hi ⟨hle, hslash⟩ => List.all_eq_true.2 fun d hd =>
          decide_eq_true (h.slash i hi hle hslash d hd)⟩⟩

theorem Token.Clear.append {source : List Char} {t : Token} (h : t.Clear source)
    (ht : t.stop ≤ source.length) (hw : ∀ d ∈ ['/', '*'], w.head? ≠ some d) :
    t.Clear (source ++ w) := by
  refine ⟨h.dull, fun i hstop hi hslash d hd => ?_⟩
  rw [List.getElem?_append_left (by omega)] at hslash
  by_cases hlt : i + 1 < source.length
  · rw [List.getElem?_append_left hlt]
    exact h.slash i hstop hi hslash d hd
  · rw [List.getElem?_append_right (by omega), Nat.sub_eq_zero_of_le (by omega),
      ← List.head?_eq_getElem?]
    exact hw d hd

theorem hole_regex {pre : List Char} (ho : rd.offset = pre.length)
    (h : (rd.tokenOf .regex x).Clear (pre ++ (x ++ r))) :
    afterTemplate (.hole n :: fs) (x ++ r) = afterTemplate (.hole n :: fs) r := by
  refine hole_slashes (by simpa [Reader.tokenOf] using h.dull) fun i hi hslash d hd => ?_
  have hget : ∀ j, (pre ++ (x ++ r))[pre.length + j]? = (x ++ r)[j]? := fun j => by
    rw [List.getElem?_append_right (by omega), Nat.add_sub_cancel_left]
  have := h.slash (pre.length + i) (by simp [Reader.tokenOf, ho, hi]) (by simp [Reader.tokenOf, ho])
    (by rw [hget, hslash]) d hd
  rwa [Nat.add_assoc, hget] at this

/-! ## The whole of a hole -/

/-- Only a mark opens or closes braces. -/
theorem tally?_token {e : Element} (he : e ≠ .token .mark) (rd : Reader) (x : List Char) (n : Nat) :
    tally? openedBraces closedBraces n (rd.token? e x).toList = some n := by
  cases ht : rd.token? e x with
  | none => rfl
  | some t =>
      have hk : t.kind ≠ .mark := by
        rcases Reader.token?_cases ht with ⟨hbreak, -⟩ | ⟨k, rfl, rfl⟩
        · simp only [Token.isBreak, beq_iff_eq] at hbreak
          simp [hbreak]
        · simpa [Reader.tokenOf] using he
      simp [tally?, Token.tally?, openedBraces, closedBraces, Token.countOf, Token.isMarkOf, hk]

/-- An element that is no mark and no regular expression is passed over in a hole as it is read. -/
theorem hole_quiet {k : Bool} {rest : List Char} {e : Element} (h : Starts k c r e rest)
    (hm : e ≠ .token .mark) (hr : e ≠ .token .regex) :
    afterTemplate (.hole n :: fs) (c :: r) = afterTemplate (.hole n :: fs) rest := by
  cases h with
  | lineBreak => exact hole_dull (by decide) r
  | blank h =>
      have hloud : blanks.any loudChars.contains = false := by decide
      exact hole_dull (fun hc => List.any_eq_false.1 hloud c h (List.contains_iff_mem.2 hc)) r
  | @line r => rw [afterTemplate, hole_line, afterLine, afterLine, List.dropWhile_cons_of_pos (by simp)]
  | comment => rw [afterTemplate, hole_comment]
  | string h =>
      have hslash : c ≠ '/' := by
        rintro rfl
        simp at h
      rw [afterTemplate_hole (fun _ hc => absurd hc hslash) (fun _ hc => absurd hc hslash),
        if_pos (by simpa using h), hole_string]
  | template =>
      rw [← afterTemplate_frames [.template]]
      simp [afterTemplate_hole]
  | regex => exact absurd rfl hr
  | word h =>
      have hloud : loudChars.any startsWord = false := by decide
      rw [hole_dropWhile (by decide), hole_dull fun hc => List.any_eq_false.1 hloud c hc h]
  | number h =>
      have hloud : loudChars.any isDecimal = false := by decide
      rw [hole_dropWhile (by decide), hole_dull fun hc => List.any_eq_false.1 hloud c hc h]
  | mark => exact absurd rfl hm
  | stray hb h =>
      -- a loud character that is no quote is a mark
      have hmark : ∀ d ∈ ['\x7b', '\x7d', '/'], c ≠ d := by
        rintro d hd rfl
        have hall : ['\x7b', '\x7d', '/'].all (fun d => marks.contains [d]) = true := by decide
        have hmem : [c] ∈ marks := List.contains_iff_mem.1 (List.all_eq_true.1 hall c hd)
        simpa using List.find?_eq_none.1 h [c] hmem
      refine hole_dull ?_ r
      rw [loudChars, List.mem_append, not_or]
      exact ⟨hb.not_quote, fun hc => hmark c hc rfl⟩

/-- An element is passed over in a hole as it is read, with the braces that it opens and closes. -/
theorem hole_element {k : Bool} {rest pre : List Char} {e : Element} (h : Starts k c r e rest)
    (hx : c :: r = x ++ rest) (ho : rd.offset = pre.length)
    (hn : tally? openedBraces closedBraces n (rd.token? e x).toList = some m)
    (hr : e = .token .regex → (rd.tokenOf .regex x).Clear (pre ++ (x ++ rest))) :
    afterTemplate (.hole n :: fs) (c :: r) = afterTemplate (.hole m :: fs) rest := by
  by_cases hmark : e = .token .mark
  · subst hmark
    obtain ⟨j, hj, ⟨⟩⟩ := tally?_cons hn
    obtain ⟨hb, hmem⟩ := h.mark_text hx
    exact hole_mark hb hmem hx hj
  obtain rfl : n = m := by
    rw [tally?_token hmark] at hn
    exact Option.some.inj hn
  by_cases hregex : e = .token .regex
  · rw [hx]
    exact hole_regex ho (hr hregex)
  · exact hole_quiet h hmark hregex

/-- What is read in a hole is passed over in it, with the braces that it opens and closes. -/
theorem Reads.hole {ts : List Token} {p : List Char} (h : Reads w rd s ts rd')
    (ho : rd.offset = p.length) (hn : tally? openedBraces closedBraces n ts = some m)
    (hr : ∀ t ∈ ts, t.kind = .regex → t.Clear (p ++ (s ++ w))) :
    afterTemplate (.hole n :: fs) (s ++ w) = afterTemplate (.hole m :: fs) w := by
  induction h generalizing n p with
  | nil =>
      obtain rfl : n = m := Option.some.inj hn
      rfl
  | @cons rd rd' c r x s e ts next split rest ih =>
      rw [tally?, List.foldlM_append] at hn
      obtain ⟨k, hk, hn⟩ := Option.bind_eq_some_iff.1 hn
      have htext : c :: (r ++ w) = x ++ (s ++ w) := by
        rw [← List.cons_append, split, List.append_assoc]
      rw [List.cons_append, htext] at hr
      have hrest : afterTemplate (.hole k :: fs) (s ++ w) = afterTemplate (.hole m :: fs) w := by
        refine ih (p := p ++ x) (by simp [Reader.advance, ho]) hn fun t ht hregex => ?_
        have := hr t (List.mem_append_right _ ht) hregex
        rwa [← List.append_assoc] at this
      rw [← hrest, List.cons_append]
      refine hole_element (Element.next_starts next) htext ho hk ?_
      rintro rfl
      exact hr _ (List.mem_append_left _ (by simp [Reader.token?, Reader.tokenOf])) rfl

/-! ## Templates with one hole -/

/-- A template with one hole. -/
def template (e : String) : String :=
  "\x60$\x7b" ++ e ++ "\x7d\x60"

theorem Sealed.afterTemplate {e : String} (he : Sealed e)
    (hb : tally? openedBraces closedBraces 0 (tokens e) = some 0)
    (hr : ∀ t ∈ tokens e, t.kind = .regex → t.Clear e.toList) :
    afterTemplate [.hole 0, .template] (e.toList ++ ['\x7d', '\x60', ';']) = [';'] := by
  obtain ⟨rd, hread⟩ := he.reads_start
  have hseam : Seam ['\x7d', '\x60', ';'] :=
    .intro (by decide) (by simp [afterRegex]) (by simp [afterRegex])
  have hclear : ∀ t ∈ tokens e, t.kind = .regex →
      t.Clear ([] ++ (e.toList ++ ['\x7d', '\x60', ';'])) := by
    intro t ht hk
    have hstop := mem_lex_stop ht
    exact (hr t ht hk).append (by simpa [Reader.start] using hstop) (by simp)
  rw [(hread.seam hseam).hole rfl hb hclear]
  simp [Source.afterTemplate]

/-- A template ends where its hole does, if the hole holds a sealed text in which the braces close, and
no regular expression in it looks like something else. -/
theorem tokens_template {e : String} (he : Sealed e)
    (hb : tally? openedBraces closedBraces 0 (tokens e) = some 0)
    (hr : ∀ t ∈ tokens e, t.kind = .regex → t.Clear e.toList) :
    tokens (template e ++ ";") = [⟨.template, template e, 0, e.length + 5, 1⟩,
      ⟨.mark, ";", e.length + 5, e.length + 6, 1 + e.toList.count '\n'⟩] := by
  have htext : (template e).toList = '\x60' :: '$' :: '\x7b' :: (e.toList ++ ['\x7d', '\x60']) := by
    simp [template]
  have hread : Reads [';'] .start (template e).toList
      [Reader.start.tokenOf .template (template e).toList]
      (Reader.start.advance (.token .template) (template e).toList) := by
    rw [htext]
    refine .cons (x := _) (s := []) (e := .token .template) ?_ (List.append_nil _).symm .nil
    simp [Element.next, blanks, Source.afterTemplate, he.afterTemplate hb hr]
  have hlex := hread.lex_append
  have hlength : (template e).toList.length = e.length + 5 := by simp [htext, String.length_toList]
  have hcount : (template e).toList.count '\n' = e.toList.count '\n' := by simp [htext]
  rw [lex_semicolon] at hlex
  rw [tokens, String.toList_append, show ";".toList = [';'] from rfl, hlex]
  simp [Reader.tokenOf, Reader.advance, Reader.linesOf, Reader.start, hlength, hcount]

/-- A hole with a template, a string, a comment and a regular expression, most of them with braces. -/
theorem tokens_template_nested :
    tokens ("\x60$\x7bf(\x60\x7b$\x7ba\x7d\x60, '\x7d', /[b/]\\/c/g /* \x7d */)\x7d\x60;")
      = [⟨.template, "\x60$\x7bf(\x60\x7b$\x7ba\x7d\x60, '\x7d', /[b/]\\/c/g /* \x7d */)\x7d\x60", 0, 40, 1⟩,
          ⟨.mark, ";", 40, 41, 1⟩] := by
  have htext : "\x60$\x7bf(\x60\x7b$\x7ba\x7d\x60, '\x7d', /[b/]\\/c/g /* \x7d */)\x7d\x60;"
      = template "f(\x60\x7b$\x7ba\x7d\x60, '\x7d', /[b/]\\/c/g /* \x7d */)" ++ ";" := by decide +kernel
  rw [htext, tokens_template (by decide +kernel) (by decide +kernel) (by decide +kernel)]
  decide +kernel

/-- A quote in a regular expression is taken for the start of a string, which hides the end of the
hole. -/
theorem tokens_template_ne_quoted :
    Sealed "/'/" ∧ tally? openedBraces closedBraces 0 (tokens "/'/") = some 0 ∧
    ∀ l m, tokens (template "/'/" ++ ";")
      ≠ [⟨.template, template "/'/", 0, 8, l⟩, ⟨.mark, ";", 8, 9, m⟩] := by
  have htokens : tokens (template "/'/" ++ ";") = [⟨.template, "\x60$\x7b/'/\x7d\x60;", 0, 9, 1⟩] := by
    decide +kernel
  refine ⟨by decide +kernel, by decide +kernel, fun l m => ?_⟩
  rw [htokens]
  simp

end TableRoster.Source
