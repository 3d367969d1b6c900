import TableRoster.Proofs.Source.Pieces
import TableRoster.Proofs.Source.RoundTrip

/-! # Lines among texts that bind nothing

A text is passed over if no statement starts in it that matters: a comment, an import, a re-export of
a whole module, a type. Lines that bind stand between such texts as they stand alone. -/

namespace TableRoster.Source

/-! ## Rows of tokens that are passed over -/

/-- The words that a statement starts with, if it matters. -/
def startingWords : List String :=
  "export" :: "declare" :: bindingKeywords

/-- A token that is passed over wherever it stands outside of brackets. -/
structure Token.Idle (t : Token) : Prop where
  opens : t.opens = false
  closes : t.closes = false
  starts : t.isWordOf startingWords = false

/-- A row of tokens that is passed over. -/
inductive Passing : List Token → Prop
  | nil : Passing []
  | idle {t : Token} {ts : List Token} (ht : t.Idle) (h : Passing ts) : Passing (t :: ts)
  /-- Behind a word no statement starts. -/
  | behind {t u : Token} {ts : List Token} (ht : t.Idle) (hk : t.kind = .word) (hu : u.kind = .word)
      (h : Passing ts) : Passing (t :: u :: ts)
  | group {o c : Token} {ts us : List Token} (ho : o.opens = true) (h : nesting? 0 ts = some 0)
      (hc : c.closes = true) (hco : c.opens = false) (hus : Passing us) :
      Passing (o :: (ts ++ c :: us))
  /-- What is exported is a module as a whole, or a type. -/
  | exported {e x : Token} {ts : List Token} (he : e.isExport) (hb : x.isBreak = false)
      (hx : x.text ∈ ["*", "type"]) (h : Passing (x :: ts)) : Passing (e :: x :: ts)

variable {before : Option Token} {t e x o c : Token} {ts us : List Token}

theorem Passing.append (h : Passing ts) (hus : Passing us) : Passing (ts ++ us) := by
  induction h with
  | nil => exact hus
  | idle ht _ ih => exact .idle ht ih
  | behind ht hk hu _ ih => exact .behind ht hk hu ih
  | group ho h hc hco _ ih => simpa using .group ho h hc hco ih
  | exported he hb hx _ ih => exact .exported he hb hx ih

instance : Joins Passing := ⟨.nil, Passing.append⟩

theorem Token.Idle.passing (h : t.Idle) : Passing [t] := .idle h .nil

theorem Token.idle_of_kind (hm : t.kind ≠ .mark) (hw : t.kind ≠ .word) : t.Idle := by
  constructor <;> simp [opens, closes, isMarkOf, isWordOf, hm, hw]

theorem Token.idle_of_word (hk : t.kind = .word) (ht : t.text ∉ startingWords) : t.Idle :=
  ⟨opens_of_word hk, closes_of_word hk, by simp [isWordOf, ht]⟩

theorem Token.idle_of_mark (hk : t.kind = .mark)
    (ht : t.text ∉ ["(", "[", "\x7b", ")", "]", "\x7d"]) : t.Idle := by
  simp only [List.mem_cons, List.not_mem_nil, or_false, not_or] at ht
  constructor <;> simp [opens, closes, isMarkOf, isWordOf, hk, ht]

theorem Token.idle_of_isBreak (h : t.isBreak = true) : t.Idle := by
  have hk : t.kind = .lineBreak := by simpa [isBreak] using h
  exact idle_of_kind (by simp [hk]) (by simp [hk])

/-! ## Statements behind a passed row -/

/-- A word that no statement starts with is passed over. -/
theorem statements_pass_word (hk : t.kind = .word)
    (h : ∀ after, (Placed.mk before t after).startsStatement = true →
      statement? (place before (t :: us)) = none) :
    statements 0 (place before (t :: us)) = statements 0 (place (some t) us) := by
  rw [place] at h ⊢
  rw [statements_cons, if_neg (by simp [Token.opens_of_word hk]),
    if_neg (by simp [Token.closes_of_word hk])]
  split
  · rename_i hs
    rw [h _ hs.2.2]
  · rfl

theorem Token.Idle.statement? (h : t.Idle) (hk : t.kind = .word) :
    statement? (place before (t :: us)) = none := by
  have hs : t.text ∉ startingWords := by simpa [isWordOf, hk] using h.starts
  have hne : ∀ x ∈ startingWords, t.text ≠ x := fun x hx h => hs (h ▸ hx)
  have hnext : ∀ x ∈ startingWords, nextIs (place before (t :: us)) x = false := fun x hx => by
    simpa [nextIs, place, is_of_word hk] using hne x hx
  have hkeyword : t.isWordOf bindingKeywords = false := by
    have : t.text ∉ bindingKeywords := fun h => hs (by simp [startingWords, h])
    simp [isWordOf, this]
  rw [Source.statement?, hnext _ (by decide), if_neg (by decide), skipDeclare, hnext _ (by decide),
    if_neg (by decide), place, bindingStatement?]
  simp [hkeyword]

theorem Token.Idle.statements (h : t.Idle) :
    statements 0 (place before (t :: us)) = statements 0 (place (some t) us) := by
  by_cases hk : t.kind = .word
  · exact statements_pass_word hk fun _ _ => h.statement? hk
  · exact statements_skip h.opens h.closes (by simpa using hk) 0

/-- Within brackets no statement starts. -/
theorem statements_inside {d n : Nat} (h : nesting? d ts = some n) :
    statements (d + 1) (place before (ts ++ us))
      = statements (n + 1) (place (ts.getLast?.or before) us) := by
  induction ts generalizing d before with
  | nil =>
      cases h
      rfl
  | cons t ts ih =>
      rw [nesting?_cons] at h
      obtain ⟨d', hd, hts⟩ := Option.bind_eq_some_iff.1 h
      rw [List.cons_append, place, statements_cons, ← getLast?_or_cons, ← ih hts]
      cases Token.nest?_eq_some.1 hd with
      | opens ho => rw [if_pos ho]
      | closes ho hc => rw [if_neg (by simp [ho]), if_pos hc, Nat.add_sub_cancel]
      | stays ho hc => rw [if_neg (by simp [ho]), if_neg (by simp [hc]), if_neg (by simp)]

theorem statements_group (ho : o.opens = true) (h : nesting? 0 ts = some 0) (hc : c.closes = true)
    (hco : c.opens = false) :
    statements 0 (place before (o :: (ts ++ c :: us))) = statements 0 (place (some c) us) := by
  rw [place, statements_cons, if_pos ho, statements_inside h, place, statements_cons,
    if_neg (by simp [hco]), if_pos hc]

theorem statement?_export (he : e.isExport) (hb : x.isBreak = false) (hx : x.text ∈ ["*", "type"]) :
    statement? (place before (e :: x :: us)) = none := by
  obtain ⟨hk, ht⟩ := he
  have hexport : nextIs (place before (e :: x :: us)) "export" = true := by
    simp [nextIs, place, Token.is_of_word hk, ht]
  have hother : ∀ text ∈ ["\x7b", "default", "declare"],
      nextIs (place (some e) (x :: us)) text = false := by
    intro text htext
    have hne : x.text ≠ text := by
      rintro rfl
      exact (by decide : ∀ text ∈ ["*", "type"], text ∉ ["\x7b", "default", "declare"]) _ hx htext
    simp [nextIs, place, Token.is, hne]
  have hkeyword : x.isWordOf bindingKeywords = false := by
    have : x.text ∉ bindingKeywords :=
      (by decide : ∀ text ∈ ["*", "type"], text ∉ bindingKeywords) _ hx
    simp [Token.isWordOf, this]
  have hrest : skipBreaks (place before (e :: x :: us)).tail = place (some e) (x :: us) :=
    skipBreaks_place_cons hb us
  rw [statement?, if_pos hexport, hrest]
  simp only [hother _ List.mem_cons_self, hother "default" (by simp), skipDeclare,
    hother "declare" (by simp)]
  simp [place, bindingStatement?, hkeyword]

/-- A row that is passed over may stand in front of any other. -/
theorem Passing.statements (h : Passing ts) :
    statements 0 (place before (ts ++ us)) = statements 0 (place (ts.getLast?.or before) us) := by
  induction h generalizing before with
  | nil => rfl
  | idle ht _ ih => rw [List.cons_append, ht.statements, ih, getLast?_or_cons]
  | behind ht hk hu _ ih =>
      rw [List.cons_append, ht.statements, List.cons_append, statements_pass_word hu, ih,
        getLast?_or_cons, getLast?_or_cons]
      -- what is left to show is that no statement starts behind the first word
      simp [Placed.startsStatement, Token.isBreak_of_word hk, Token.isMarkOf_of_word hk]
  | group ho h hc hco _ ih =>
      rw [List.cons_append, List.append_assoc, List.cons_append, statements_group ho h hc hco, ih]
      simp [List.getLast?_append, List.getLast?_cons]
  | @exported e x ts he hb hx _ ih =>
      have hpass : statements 0 (place before (e :: (x :: ts ++ us)))
          = statements 0 (place (some e) (x :: ts ++ us)) :=
        statements_pass_word he.1 fun _ _ => statement?_export he hb hx
      rw [List.cons_append, hpass, ih, getLast?_or_cons]

/-! ## Pieces that are passed over -/

variable {x y : List Char}

theorem passing_word (hx : isWordText x = true) (hs : String.ofList x ∉ startingWords) :
    Makes Passing x :=
  makes_word hx fun _ hk ht => (Token.idle_of_word hk (ht ▸ hs)).passing

/-- A word of any kind behind a word. -/
theorem passing_words (hx : isWordText x = true) (hs : String.ofList x ∉ startingWords)
    (hy : isWordText y = true) : Makes Passing (x ++ ' ' :: y) :=
  makes_words hx hy fun _ _ hk ht hu => .behind (Token.idle_of_word hk (ht ▸ hs)) hk hu .nil

theorem passing_string {q : Char} (hx : Quotable x) (hq : q ∈ ['\x27', '\x22']) :
    Closed Passing (q :: (x ++ [q])) :=
  closed_string hx hq fun _ hk _ => (Token.idle_of_kind (by simp [hk]) (by simp [hk])).passing

theorem passing_equals : Closed Passing ['=', ' '] :=
  closed_spacedMark (by decide) fun _ hk ht => (Token.idle_of_mark hk (ht ▸ by decide)).passing

theorem passing_group {o c : Char} (ho : o ∈ ['[', '\x7b']) (hc : c ∈ [']', '\x7d'])
    (hx : Makes Flat x) : Closed Passing (o :: (x ++ [c])) := fun rd =>
  let ⟨_, _, _, rd', hr, hg, _⟩ := hx.reads_group ho hc rd
  ⟨_, rd', hr, .group hg.opens hg.balanced hg.closes hg.not_opens .nil⟩

/-- The word `export` and a blank in front of a text. -/
theorem reads_export (w : List Char) (rd : Reader) :
    Reads w rd "export ".toList [rd.tokenOf .word "export".toList]
      ((rd.advance (.token .word) "export".toList).advance .blank [' ']) :=
  .spacedWord (s := "export".toList) (by decide)

theorem passing_exportAll : Closed Passing ("export ".toList ++ ['*', ' ']) := by
  have hstar : Closed (fun ts => ∀ e : Token, e.isExport → Passing (e :: ts)) ['*', ' '] := by
    refine closed_spacedMark (by decide) fun t hk ht e he => .exported he ?_ (by simp [ht]) ?_
    · simp [Token.isBreak, hk]
    · exact (Token.idle_of_mark hk (ht ▸ by decide)).passing
  intro rd
  obtain ⟨ts, rd', hr, hts⟩ := hstar _
  exact ⟨_, rd', fun w => (reads_export _ rd).append (hr w), hts _ ⟨rfl, rfl⟩⟩

theorem passing_exportType (hx : isWordText x = true) :
    Makes Passing ("export ".toList ++ ("type".toList ++ ' ' :: x)) := by
  have htype : Makes (fun ts => ∀ e : Token, e.isExport → Passing (e :: ts))
      ("type".toList ++ ' ' :: x) := by
    refine makes_words (by decide) hx fun t u hk ht hu e he => .exported he ?_ (by simp [ht]) ?_
    · exact Token.isBreak_of_word hk
    · exact .behind (Token.idle_of_word hk (ht ▸ by decide)) hk hu .nil
  intro rd
  obtain ⟨ts, rd', hr, hts⟩ := htype _
  exact ⟨_, rd', fun w hw => (reads_export _ rd).append (hr w hw), hts _ ⟨rfl, rfl⟩⟩

/-! ## Texts that carry lines -/

/-- Read from the start of a line, the text is read by itself up to the start of a line. Its statements
are those of the lines, and what follows it is read on as at a start. -/
def Carries (a : String) (ls : List Line) : Prop :=
  ∀ (rd : Reader) (pre w : List Char), 1 ≤ rd.line → IsStart rd.last → rd.offset = pre.length →
    ∃ ts rd', Reads w rd a.toList ts rd' ∧ IsStart rd'.last ∧
      ∀ us, ∃ ss, List.Forall₂ (Line.Stands (pre ++ (a.toList ++ w))) ls ss ∧
        statements 0 (place rd.last (ts ++ us)) = ss ++ statements 0 (place rd'.last us)

variable {s : List Char} {a b : String} {l : Line} {ls ls' : List Line}

theorem Carries.append (ha : Carries a ls) (hb : Carries b ls') : Carries (a ++ b) (ls ++ ls') := by
  intro rd pre w hp hs ho
  obtain ⟨ts, rd₁, hr, hs₁, hstatements⟩ := ha rd pre (b.toList ++ w) hp hs ho
  obtain ⟨us, rd₂, hr', hs₂, hstatements'⟩ :=
    hb rd₁ (pre ++ a.toList) w (Nat.le_trans hp hr.line_le) hs₁
      (by rw [hr.offset, ho, List.length_append])
  refine ⟨ts ++ us, rd₂, by simpa using hr.append hr', hs₂, fun vs => ?_⟩
  obtain ⟨ss, hss, h⟩ := hstatements (us ++ vs)
  obtain ⟨ss', hss', h'⟩ := hstatements' vs
  refine ⟨ss ++ ss', ?_, by rw [List.append_assoc, h, h', List.append_assoc]⟩
  simp only [String.toList_append, List.append_assoc] at hss hss' ⊢
  exact List.rel_append hss hss'

/-- A row of tokens that is passed over, up to the end of a line if there is any. -/
structure PassedLines (ts : List Token) : Prop where
  passing : Passing ts
  ends : IsStart ts.getLast?

instance : Joins PassedLines where
  nil := ⟨.nil, isStart_none⟩
  append h h' := ⟨h.passing.append h'.passing, by rw [List.getLast?_append]; exact h'.ends.or h.ends⟩

theorem passedLines_break (t : Token) (h : t.isBreak = true) : PassedLines [t] :=
  ⟨(Token.idle_of_isBreak h).passing, isStart_some h⟩

theorem Closed.carries (h : Closed PassedLines s) (ha : a.toList = s) : Carries a [] := by
  subst ha
  intro rd pre w _ hs _
  obtain ⟨ts, rd', hr, hts⟩ := h rd
  have hlast := (hr w).last
  refine ⟨ts, rd', hr w, hlast ▸ hts.ends.or hs, fun us => ⟨[], .nil, ?_⟩⟩
  rw [hlast, hts.passing.statements]
  rfl

theorem carries_lineBreak : Carries "\n" [] :=
  (closed_lineBreak passedLines_break).carries (by decide)

/-- A row that is passed over, with a semicolon at its end. -/
theorem Makes.carries (h : Makes Passing s) (ha : a.toList = s ++ [';', '\n']) : Carries a [] := by
  have hclosed : Closed PassedLines (s ++ [';', '\n']) := by
    intro rd
    obtain ⟨ts, rd', hr, hts⟩ := h rd
    have hend : Passing [rd'.tokenOf .mark [';'],
        (rd'.advance (.token .mark) [';']).tokenOf .lineBreak ['\n']] :=
      .idle (Token.idle_of_mark rfl (by simp [Reader.tokenOf])) (Token.idle_of_isBreak rfl).passing
    exact ⟨_, _, fun w => (hr (';' :: '\n' :: w) rfl).append .lineEnd, hts.append hend,
      by simpa using isStart_some rfl⟩
  exact hclosed.carries ha

theorem Line.Valid.carries (hl : l.Valid) : Carries (l.text ++ ";\n") [l] := by
  intro rd pre w hp hs ho
  obtain ⟨ts, rd', hr, -, hs', h⟩ := hl.reads_text (w := w) hp
  refine ⟨ts, rd'.lineEnd, hr, hs', fun us => ?_⟩
  obtain ⟨line, h⟩ := h us hs
  refine ⟨_, .cons ⟨line, _, _, rfl, ?_⟩ .nil, h⟩
  have hslice := slice_append (pre ++ l.opening) l.initializer ([';', '\n'] ++ w)
  simpa [Line.toList_text, ho] using hslice

/-- A text declares the lines that it carries. -/
theorem Carries.declarations (h : Carries a ls) :
    (declarations a).map Declaration.printed = ls.map Line.printed := by
  obtain ⟨ts, rd', hr, -, hstatements⟩ := h .start [] [] (Nat.le_refl 1) isStart_none rfl
  obtain ⟨ss, hss, h⟩ := hstatements []
  have hnil : Source.statements 0 (place rd'.last []) = [] := by rw [place, Source.statements]
  have hall : statementsOf a = ss := by
    rw [statementsOf, hr.tokens, ← List.append_nil ts]
    exact h.trans (by rw [hnil, List.append_nil])
  exact declarations_of_stands (hall ▸ by simpa using hss)

end TableRoster.Source
