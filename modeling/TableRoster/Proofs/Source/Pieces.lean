import TableRoster.Proofs.Source.Form
import TableRoster.Proofs.Source.Locality
import TableRoster.Proofs.Text.Joined

/-! # Texts made of pieces

A text is put together from words, marks, strings, blanks and comments. Where no piece goes on with
the one before it, the tokens of the text are those of its pieces. -/

namespace TableRoster.Source

open Text

variable {rd : Reader} {s x w : List Char} {t : Token} {ts us : List Token} {P Q R : List Token → Prop}

/-! ## Pieces -/

/-- A text that goes on with no word that stands before it. -/
def Apart (w : List Char) : Prop :=
  w.head?.any continuesWord = false

instance : DecidablePred Apart := fun _ => inferInstanceAs (Decidable (_ = _))

theorem Apart.append (hs : Apart s) (hw : Apart w) : Apart (s ++ w) := by
  cases s with
  | nil => exact hw
  | cons => exact hs

theorem Apart.dropWhile (hw : Apart w) : w.dropWhile continuesWord = w := by
  cases w with
  | nil => rfl
  | cons c r => exact List.dropWhile_cons_of_neg (by simpa [Apart] using hw)

/-- From every place, the text is read by itself in front of what stands apart, into tokens as asked. -/
def Makes (Q : List Token → Prop) (s : List Char) : Prop :=
  ∀ rd : Reader, ∃ ts rd', (∀ w, Apart w → Reads w rd s ts rd') ∧ Q ts

/-- From every place, the text is read by itself in front of anything, into tokens as asked. -/
def Closed (Q : List Token → Prop) (s : List Char) : Prop :=
  ∀ rd : Reader, ∃ ts rd', (∀ w, Reads w rd s ts rd') ∧ Q ts

/-- What holds of no tokens, and of two rows of tokens together if it holds of each. -/
class Joins (Q : List Token → Prop) : Prop where
  nil : Q []
  append : ∀ {ts us}, Q ts → Q us → Q (ts ++ us)

theorem Closed.makes (h : Closed Q s) : Makes Q s := fun rd =>
  let ⟨ts, rd', hr, hQ⟩ := h rd
  ⟨ts, rd', fun w _ => hr w, hQ⟩

/-! ## One text behind another -/

theorem Closed.join (h : Closed P x) (hs : Makes Q s) (hR : ∀ {ts us}, P ts → Q us → R (ts ++ us)) :
    Makes R (x ++ s) := by
  intro rd
  obtain ⟨ts, rd₁, hr, hts⟩ := h rd
  obtain ⟨us, rd₂, hr', hus⟩ := hs rd₁
  exact ⟨ts ++ us, rd₂, fun w hw => (hr _).append (hr' w hw), hR hts hus⟩

theorem Closed.join_closed (h : Closed P x) (hs : Closed Q s)
    (hR : ∀ {ts us}, P ts → Q us → R (ts ++ us)) : Closed R (x ++ s) := by
  intro rd
  obtain ⟨ts, rd₁, hr, hts⟩ := h rd
  obtain ⟨us, rd₂, hr', hus⟩ := hs rd₁
  exact ⟨ts ++ us, rd₂, fun w => (hr _).append (hr' w), hR hts hus⟩

theorem Makes.join (h : Makes P x) (hs : Makes Q s) (ha : Apart s)
    (hR : ∀ {ts us}, P ts → Q us → R (ts ++ us)) : Makes R (x ++ s) := by
  intro rd
  obtain ⟨ts, rd₁, hr, hts⟩ := h rd
  obtain ⟨us, rd₂, hr', hus⟩ := hs rd₁
  exact ⟨ts ++ us, rd₂, fun w hw => (hr _ (ha.append hw)).append (hr' w hw), hR hts hus⟩

theorem Makes.join_closed (h : Makes P x) (hs : Closed Q s) (ha : ∀ w, Apart (s ++ w))
    (hR : ∀ {ts us}, P ts → Q us → R (ts ++ us)) : Closed R (x ++ s) := by
  intro rd
  obtain ⟨ts, rd₁, hr, hts⟩ := h rd
  obtain ⟨us, rd₂, hr', hus⟩ := hs rd₁
  exact ⟨ts ++ us, rd₂, fun w => (hr _ (ha w)).append (hr' w), hR hts hus⟩

section

variable [Joins Q]

theorem makes_nil : Makes Q [] := fun rd => ⟨[], rd, fun _ _ => .nil, Joins.nil⟩

theorem Closed.append (h : Closed Q x) (hs : Makes Q s) : Makes Q (x ++ s) :=
  h.join hs Joins.append

theorem Closed.append_closed (h : Closed Q x) (hs : Closed Q s) : Closed Q (x ++ s) :=
  h.join_closed hs Joins.append

theorem Makes.append (h : Makes Q x) (hs : Makes Q s) (ha : Apart s) : Makes Q (x ++ s) :=
  h.join hs ha Joins.append

theorem Makes.flatMap {α : Type} {as : List α} {f : α → List Char} (h : ∀ a ∈ as, Makes Q (f a))
    (ha : ∀ a r, Apart (f a ++ r)) : Makes Q (as.flatMap f) ∧ Apart (as.flatMap f) := by
  induction as with
  | nil => exact ⟨makes_nil, rfl⟩
  | cons a as ih =>
      obtain ⟨hfirst, hrest⟩ := List.forall_mem_cons.1 h
      obtain ⟨hmore, hapart⟩ := ih hrest
      exact ⟨hfirst.append hmore hapart, ha a _⟩

/-- Texts with a text between them that does not go on with any of them. -/
theorem Makes.intercalate {sep : List Char} {xs : List (List Char)}
    (hsep : ∀ {x}, Makes Q x → Makes Q (sep ++ x)) (ha : ∀ r, Apart (sep ++ r))
    (h : ∀ x ∈ xs, Makes Q x) : Makes Q (sep.intercalate xs) := by
  cases xs with
  | nil => exact makes_nil
  | cons x xs =>
      obtain ⟨hfirst, hrest⟩ := List.forall_mem_cons.1 h
      obtain ⟨hmore, hapart⟩ : Makes Q (xs.flatMap (sep ++ ·)) ∧ Apart (xs.flatMap (sep ++ ·)) :=
        Makes.flatMap (fun x hx => hsep (hrest x hx)) fun x r => by simpa using ha (x ++ r)
      rw [intercalate_cons]
      exact hfirst.append hmore hapart

theorem closed_space : Closed Q [' '] :=
  fun _ => ⟨_, _, fun _ => .space, Joins.nil⟩

end

/-! ## Single tokens -/

theorem makes_word (hs : isWordText s = true)
    (h : ∀ t : Token, t.kind = .word → t.text = String.ofList s → Q [t]) : Makes Q s :=
  fun rd => ⟨_, _, fun _ hw => .word hs hw.dropWhile, h (rd.tokenOf .word s) rfl rfl⟩

/-- Two words with a blank between them. -/
theorem makes_words (hx : isWordText x = true) (hs : isWordText s = true)
    (h : ∀ t u : Token, t.kind = .word → t.text = String.ofList x → u.kind = .word → Q [t, u]) :
    Makes Q (x ++ ' ' :: s) := by
  have hwords : ∀ (rd : Reader) w, Apart w → Reads w rd ((x ++ [' ']) ++ s) _ _ := fun rd w hw =>
    (Reads.spacedWord hx).append (.word hs hw.dropWhile)
  intro rd
  exact ⟨_, _, fun w hw => by simpa using hwords rd w hw, h (rd.tokenOf .word x) _ rfl rfl rfl⟩

/-- A mark that is no part of a longer one. -/
theorem markAt?_single {c : Char} (hc : [c] ∈ marks) (h : ∀ m ∈ marks, m.head? = some c → m = [c])
    (w : List Char) : markAt? (c :: w) = some [c] := by
  have hne : [] ∉ marks := by decide
  unfold markAt?
  cases hm : marks.find? (·.isPrefixOf (c :: w)) with
  | none => exact absurd (List.find?_eq_none.1 hm _ hc) (by simp)
  | some m =>
      have hmem := List.mem_of_find?_eq_some hm
      have hfront : m <+: c :: w := isPrefix_of_markAt? hm
      cases m with
      | nil => exact absurd hmem hne
      | cons a m =>
          obtain ⟨rfl, -⟩ := List.cons_prefix_cons.1 hfront
          rw [h _ hmem rfl]

/-- The marks that are read alike in front of anything. -/
def singleMarks : List Char :=
  ['\x7b', '\x7d', '[', ']', ',']

theorem reads_singleMark {c : Char} (hc : c ∈ singleMarks) (w : List Char) (rd : Reader) :
    Reads w rd [c] [rd.tokenOf .mark [c]] (rd.advance (.token .mark) [c]) := by
  have hsingle : ∀ c ∈ singleMarks, (isPlain c = true ∧ startsWord c = false ∧ isDecimal c = false)
      ∧ [c] ∈ marks ∧ ∀ m ∈ marks, m.head? = some c → m = [c] := by
    simp only [singleMarks, List.forall_mem_cons]
    refine ⟨?_, ?_, ?_, ?_, ?_, nofun⟩ <;> decide
  obtain ⟨⟨hp, hw, hd⟩, hm, hlone⟩ := hsingle c hc
  exact .mark hp hw hd (markAt?_single hm hlone w)

theorem closed_mark {c : Char} (hc : c ∈ singleMarks)
    (h : ∀ t : Token, t.kind = .mark → t.text = String.ofList [c] → Q [t]) : Closed Q [c] :=
  fun rd => ⟨_, _, fun w => reads_singleMark hc w rd, h (rd.tokenOf .mark [c]) rfl rfl⟩

/-- A mark in front of a blank. -/
theorem closed_spacedMark {c : Char} (hc : c ∈ ['=', '*'])
    (h : ∀ t : Token, t.kind = .mark → t.text = String.ofList [c] → Q [t]) : Closed Q [c, ' '] := by
  have hspaced : ∀ c ∈ ['=', '*'], (isPlain c = true ∧ startsWord c = false ∧ isDecimal c = false)
      ∧ markAt? [c] = some [c] := by
    simp only [List.forall_mem_cons]
    exact ⟨by decide, by decide, nofun⟩
  obtain ⟨⟨hp, hw, hd⟩, hm⟩ := hspaced c hc
  have hmark : ∀ (w : List Char) (rd : Reader), Reads (' ' :: w) rd [c] _ _ := fun w rd =>
    .mark hp hw hd ((markAt?_front (r := []) (by decide)).trans hm)
  exact fun rd => ⟨_, _, fun w => by simpa using (hmark w rd).append .space,
    h (rd.tokenOf .mark [c]) rfl rfl⟩

/-- What is read of an element that makes no token of its own: nothing, or a line break. -/
theorem token?_of_passed [Joins Q] {e : Element} (he : ∀ k, e ≠ .token k)
    (hb : ∀ t : Token, t.isBreak = true → Q [t]) : Q (rd.token? e x).toList := by
  cases ht : rd.token? e x with
  | none => exact Joins.nil
  | some t =>
      rcases Reader.token?_cases ht with ⟨hbreak, _⟩ | ⟨k, hk, _⟩
      · exact hb t hbreak
      · exact absurd hk (he k)

/-- A character that is an element of its own and makes no token but a line break. -/
theorem closed_passed [Joins Q] {c : Char} {e : Element} (hn : ∀ k r, Element.next k c r = (e, r))
    (he : ∀ k, e ≠ .token k) (hb : ∀ t : Token, t.isBreak = true → Q [t]) : Closed Q [c] := by
  intro rd
  have hread : ∀ w, Reads w rd [c] ((rd.token? e [c]).toList ++ []) (rd.advance e [c]) :=
    fun w => .cons (s := []) (by simp [hn]) (by simp) .nil
  have hQ : Q (rd.token? e [c]).toList := token?_of_passed he hb
  exact ⟨_, _, hread, by simpa using hQ⟩

/-- A line break, which makes no token behind another one. -/
theorem closed_lineBreak [Joins Q] (hb : ∀ t : Token, t.isBreak = true → Q [t]) : Closed Q ['\n'] :=
  closed_passed (e := .lineBreak) (fun _ _ => by simp [Element.next]) nofun hb

/-! ## Strings and comments -/

/-- A text that a string can hold as it is. -/
def Quotable (s : List Char) : Prop :=
  ∀ c ∈ s, c ∉ ['\x27', '\x22', '\\', '\n']

theorem afterString_cons {q c : Char} (hc : c ≠ '\\') (r : List Char) : afterString q (c :: r)
    = if c = q then r else if c = '\n' then c :: r else afterString q r := by
  rw [afterString]
  · rintro rfl
    exact absurd rfl hc
  · rintro _ _ rfl
    exact absurd rfl hc

theorem afterString_quotable {q : Char} (hs : Quotable s) (hq : q ∈ ['\x27', '\x22'])
    (w : List Char) : afterString q (s ++ q :: w) = w := by
  induction s with
  | nil => rw [List.nil_append, afterString_cons (by rintro rfl; simp at hq), if_pos rfl]
  | cons c s ih =>
      obtain ⟨hc, hs⟩ := List.forall_mem_cons.1 hs
      have hcq : c ≠ q := by
        rintro rfl
        exact hc (List.mem_append_left ['\\', '\n'] hq)
      simp only [List.mem_cons, List.not_mem_nil, or_false, not_or] at hc
      rw [List.cons_append, afterString_cons hc.2.2.1, if_neg hcq, if_neg hc.2.2.2, ih hs]

/-- A string, if it ends where its text says so. -/
theorem closed_quoted {q : Char} (hs : ∀ w, afterString q (s ++ q :: w) = w) (hq : q ∈ ['\x27', '\x22'])
    (h : ∀ t : Token, t.kind = .string → t.text = String.ofList (q :: (s ++ [q])) → Q [t]) :
    Closed Q (q :: (s ++ [q])) := by
  have hnext : ∀ q ∈ ['\x27', '\x22'], ∀ k r,
      Element.next k q r = (.token .string, afterString q r) := by
    intro q hq k r
    simp only [List.mem_cons, List.not_mem_nil, or_false] at hq
    obtain rfl | rfl := hq <;> simp [Element.next, blanks]
  intro rd
  refine ⟨_, _, fun w => .cons (x := q :: (s ++ [q])) (s := []) (e := .token .string) ?_
    (by simp) .nil, ?_⟩
  · rw [hnext q hq, List.append_assoc, List.singleton_append, hs, List.nil_append]
  · exact h _ rfl rfl

theorem closed_string {q : Char} (hs : Quotable s) (hq : q ∈ ['\x27', '\x22'])
    (h : ∀ t : Token, t.kind = .string → t.text = String.ofList (q :: (s ++ [q])) → Q [t]) :
    Closed Q (q :: (s ++ [q])) :=
  closed_quoted (afterString_quotable hs hq) hq h

theorem afterComment_of_not_infix (hs : ¬ ['*', '/'] <:+: s) (w : List Char) :
    afterComment (s ++ '*' :: '/' :: w) = w := by
  induction s with
  | nil => rfl
  | cons c s ih =>
      rw [List.cons_append, afterComment, ih fun h => hs (h.trans (List.suffix_cons c s).isInfix)]
      -- the comment would close here only in front of a slash
      rintro r rfl h
      cases s with
      | nil => simp at h
      | cons a s =>
          obtain rfl := (List.cons.inj h).1
          exact hs ⟨[], s, rfl⟩

/-- A comment over several lines makes a line break. -/
theorem closed_comment [Joins Q] (hs : ¬ ['*', '/'] <:+: s) (hb : ∀ t : Token, t.isBreak = true → Q [t]) :
    Closed Q ('/' :: '*' :: (s ++ ['*', '/'])) := by
  intro rd
  have hQ : Q (rd.token? .comment ('/' :: '*' :: (s ++ ['*', '/']))).toList :=
    token?_of_passed nofun hb
  refine ⟨_, _, fun w => .cons (x := '/' :: '*' :: (s ++ ['*', '/'])) (s := []) (e := .comment) ?_
    (by simp) .nil, by simpa using hQ⟩
  simp [Element.next, blanks, afterComment_of_not_infix hs]

/-- A comment up to the end of its line. -/
theorem closed_lineComment [Joins Q] (hs : '\n' ∉ s) (hb : ∀ t : Token, t.isBreak = true → Q [t]) :
    Closed Q ('/' :: '/' :: (s ++ ['\n'])) := by
  intro rd
  have hline : ∀ w, afterLine ('/' :: (s ++ '\n' :: w)) = '\n' :: w := by
    intro w
    have hall : ∀ c ∈ '/' :: s, decide (c ≠ '\n') = true := by
      simpa using fun c hc => ne_of_mem_of_not_mem hc hs
    rw [afterLine, ← List.cons_append, List.dropWhile_append_of_pos hall]
    rfl
  have hcomment : rd.token? .comment ('/' :: '/' :: s) = none := by
    simp [Reader.token?, hs]
  obtain ⟨ts, rd', hr, hts⟩ := closed_lineBreak hb (rd.advance .comment ('/' :: '/' :: s))
  refine ⟨ts, rd', fun w => ?_, hts⟩
  have hcons : Reads w rd ('/' :: '/' :: (s ++ ['\n'])) _ _ :=
    .cons (x := '/' :: '/' :: s) (s := ['\n']) (e := .comment)
      (by simp [Element.next, blanks, hline]) (by simp) (hr w)
  simpa [hcomment] using hcons

/-! ## Groups and complete expressions -/

/-- A row of tokens in which every bracket closes. -/
def Balanced (ts : List Token) : Prop :=
  nesting? 0 ts = some 0

instance : DecidablePred Balanced := fun _ => inferInstanceAs (Decidable (_ = _))

instance : Joins Balanced where
  nil := rfl
  append {ts us} h h' := by
    rw [Balanced, nesting?, List.foldlM_append]
    exact Option.bind_eq_some_iff.2 ⟨0, h, h'⟩

theorem balanced_of_nest? (h : t.nest? 0 = some 0) : Balanced [t] := by
  rw [Balanced, nesting?_cons, h]
  rfl

/-- A row of tokens in which every bracket closes and no angle opens. -/
structure Flat (ts : List Token) : Prop where
  balanced : Balanced ts
  no_angle : ∀ t ∈ ts, t.isMarkOf ["<"] = false

instance : Joins Flat where
  nil := ⟨rfl, nofun⟩
  append h h' := ⟨Joins.append h.balanced h'.balanced,
    List.forall_mem_append.2 ⟨h.no_angle, h'.no_angle⟩⟩

theorem flat_single (h : t.nest? 0 = some 0) (ha : t.isMarkOf ["<"] = false) : Flat [t] :=
  ⟨balanced_of_nest? h, List.forall_mem_singleton.2 ha⟩

/-- A row of tokens between two brackets, from one offset to another. -/
structure Grouped (start stop : Nat) (o : Token) (ts : List Token) (c : Token) : Prop where
  opens : o.opens = true
  separates : o.separates = false
  balanced : Balanced ts
  closes : c.closes = true
  not_opens : c.opens = false
  start_eq : o.start = start
  stop_eq : c.stop = stop

theorem Grouped.whole {start stop : Nat} {o c : Token} (h : Grouped start stop o ts c) :
    Whole 0 (o :: (ts ++ [c])) :=
  whole_group h.opens h.closes h.not_opens h.separates h.balanced

theorem Makes.reads_group {o c : Char} (ho : o ∈ ['[', '\x7b']) (hc : c ∈ [']', '\x7d'])
    (h : Makes Flat s) (rd : Reader) :
    ∃ t ts u rd', (∀ w, Reads w rd (o :: (s ++ [c])) (t :: (ts ++ [u])) rd') ∧
      Grouped rd.offset rd'.offset t ts u ∧ Flat (t :: (ts ++ [u])) := by
  have hopen : ∀ o ∈ ['[', '\x7b'], o ∈ singleMarks ∧ ∀ rd : Reader,
      (rd.tokenOf .mark [o]).opens = true ∧ (rd.tokenOf .mark [o]).separates = false ∧
        (rd.tokenOf .mark [o]).isMarkOf ["<"] = false := by
    simp only [List.forall_mem_cons]
    exact ⟨⟨by decide, fun _ => ⟨rfl, rfl, rfl⟩⟩, ⟨by decide, fun _ => ⟨rfl, rfl, rfl⟩⟩, nofun⟩
  have hclose : ∀ c ∈ [']', '\x7d'], (c ∈ singleMarks ∧ Apart [c]) ∧ ∀ rd : Reader,
      (rd.tokenOf .mark [c]).closes = true ∧ (rd.tokenOf .mark [c]).opens = false ∧
        (rd.tokenOf .mark [c]).isMarkOf ["<"] = false := by
    simp only [List.forall_mem_cons]
    exact ⟨⟨by decide, fun _ => ⟨rfl, rfl, rfl⟩⟩, ⟨by decide, fun _ => ⟨rfl, rfl, rfl⟩⟩, nofun⟩
  obtain ⟨ho, hopens⟩ := hopen o ho
  obtain ⟨⟨hc, ha⟩, hcloses⟩ := hclose c hc
  obtain ⟨ts, rd₁, hr, hts⟩ := h (rd.advance (.token .mark) [o])
  have hgroup : Grouped rd.offset (rd₁.advance (.token .mark) [c]).offset (rd.tokenOf .mark [o]) ts
      (rd₁.tokenOf .mark [c]) :=
    ⟨(hopens rd).1, (hopens rd).2.1, hts.balanced, (hcloses rd₁).1, (hcloses rd₁).2.1, rfl, rfl⟩
  have hangle : ∀ t ∈ rd.tokenOf .mark [o] :: (ts ++ [rd₁.tokenOf .mark [c]]),
      t.isMarkOf ["<"] = false := by
    rw [List.forall_mem_cons, List.forall_mem_append]
    exact ⟨(hopens rd).2.2, hts.no_angle, List.forall_mem_singleton.2 (hcloses rd₁).2.2⟩
  exact ⟨_, ts, _, _,
    fun w => (reads_singleMark ho _ rd).append ((hr ([c] ++ w) ha).append (reads_singleMark hc w rd₁)),
    hgroup, hgroup.whole.nested, hangle⟩

theorem closed_group {o c : Char} (ho : o ∈ ['[', '\x7b']) (hc : c ∈ [']', '\x7d'])
    (h : Makes Flat s) : Closed Flat (o :: (s ++ [c])) := fun rd =>
  let ⟨_, _, _, rd', hr, _, hl⟩ := h.reads_group ho hc rd
  ⟨_, rd', hr, hl⟩

/-- A text that is read by itself in front of a semicolon and at its end. -/
theorem Alone.of_reads {e : String} (h : Reads [] .start e.toList ts rd)
    (h' : Reads [';'] .start e.toList ts rd) {t u : Token} (ht : ts.head? = some t)
    (hstart : t.start = 0) (hu : ts.getLast? = some u) (hstop : u.stop = rd.offset) :
    Alone e ∧ tokens e = ts := by
  have htokens : tokens e = ts := h.tokens
  have hoffset : rd.offset = e.length := by
    have h := h.offset
    rwa [String.length_toList, Reader.start, Nat.zero_add] at h
  refine ⟨⟨⟨rd.line, ?_⟩, by simp [htokens, ht, hstart], by simp [htokens, hu, hstop, hoffset]⟩,
    htokens⟩
  have hlex := h'.lex_append
  rw [lex_semicolon] at hlex
  rw [htokens, ← hoffset, tokens, String.toList_append]
  exact hlex

/-- Brackets around a text in which every bracket closes, and no angle opens, are a complete
expression. -/
theorem Makes.complete_group {o c : Char} {e : String} (ho : o ∈ ['[', '\x7b'])
    (hc : c ∈ [']', '\x7d']) (h : Makes Flat s) (he : e.toList = o :: (s ++ [c])) : Complete e := by
  obtain ⟨t, ts, u, rd, hr, hg, -⟩ := h.reads_group ho hc .start
  have hlast : (t :: (ts ++ [u])).getLast? = some u := by simp [List.getLast?_cons]
  obtain ⟨halone, htokens⟩ :=
    Alone.of_reads (he ▸ hr []) (he ▸ hr [';']) rfl hg.start_eq hlast hg.stop_eq
  exact ⟨halone, htokens ▸ hg.whole⟩

/-- So it is with two words behind them. -/
theorem Makes.complete_group_words {o c : Char} {e : String} {x y : List Char}
    (ho : o ∈ ['[', '\x7b']) (hc : c ∈ [']', '\x7d']) (h : Makes Flat s)
    (hx : isWordText x = true) (hy : isWordText y = true)
    (he : e.toList = (o :: (s ++ [c])) ++ ' ' :: (x ++ ' ' :: y)) : Complete e := by
  obtain ⟨t, ts, u, rd, hr, hg, -⟩ := h.reads_group ho hc .start
  have hwords : ∀ w, Apart w → Reads w rd ([' '] ++ ((x ++ [' ']) ++ y)) _ _ := fun w hw =>
    Reads.space.append ((Reads.spacedWord hx).append (.word hy hw.dropWhile))
  have hread : ∀ w, Apart w → Reads w .start e.toList _ _ := fun w hw => by
    simpa [he] using (hr _).append (hwords w hw)
  obtain ⟨halone, htokens⟩ := Alone.of_reads (hread [] rfl) (hread [';'] rfl) rfl hg.start_eq
    (by simp [List.getLast?_cons]; rfl) rfl
  refine ⟨halone, htokens ▸ ?_⟩
  have hpair : ∀ {a b : Token}, a.kind = .word → b.kind = .word → Whole 0 [a, b] := fun ha hb =>
    whole_of_calm (by simp [Token.calm_of_word, ha, hb])
  simpa using hg.whole.append (hpair rfl rfl)

end TableRoster.Source
