import TableRoster.Proofs.Source.Complete

/-! # Binding statements

The statement `[export] const name = …` is taken up to the end of its initializer. -/

namespace TableRoster.Source

variable {before : Option Token} {t kw name eq : Token} {ts us : List Token} {rest : List Placed}

/-! ## One step -/

theorem bindings_eq (ps : List Placed) :
    bindings ps = match skipBreaks ps with
      | [] => ([], [])
      | p :: qs =>
        match binding? p qs with
        | none => ([], p :: qs)
        | some (b, rest) =>
          if nextIs rest "," then
            (b.toList ++ (bindings rest.tail).1, (bindings rest.tail).2)
          else (b.toList, rest) := by
  rw [bindings]
  split
  · rename_i h
    simp [h]
  · rename_i p qs h
    simp only [h]
    split
    · rename_i hb
      simp [hb]
    · rename_i hb
      simp [hb]

theorem statements_cons (depth : Nat) (p : Placed) (qs : List Placed) :
    statements depth (p :: qs) =
      if p.token.opens then statements (depth + 1) qs
      else if p.token.closes then statements (depth - 1) qs
      else if depth = 0 ∧ p.token.kind = .word ∧ p.startsStatement then
        match statement? (p :: qs) with
        | some (s, rest) => s :: statements 0 rest
        | none => statements 0 qs
      else statements depth qs := by
  rw [statements]
  repeat' split
  all_goals simp_all

/-! ## Tokens by their class -/

theorem Token.isMarkOf_of_word (h : t.kind = .word) (texts : List String) :
    t.isMarkOf texts = false := by
  simp [isMarkOf, h]

theorem Token.opens_of_word (h : t.kind = .word) : t.opens = false := isMarkOf_of_word h _

theorem Token.closes_of_word (h : t.kind = .word) : t.closes = false := isMarkOf_of_word h _

theorem Token.is_of_word (h : t.kind = .word) (text : String) : t.is text = (t.text == text) := by
  simp [is, h]

theorem skipBreaks_place_cons (h : t.isBreak = false) (ts : List Token) :
    skipBreaks (place before (t :: ts)) = place before (t :: ts) := by
  simp [skipBreaks, place, h]

theorem skipBreaks_place_append {bs : List Token} (h : ∀ t ∈ bs, t.isBreak = true) (ts : List Token) :
    skipBreaks (place before (bs ++ ts)) = skipBreaks (place (bs.getLast?.or before) ts) := by
  induction bs generalizing before with
  | nil => rfl
  | cons b bs ih =>
      obtain ⟨hb, hbs⟩ := List.forall_mem_cons.1 h
      rw [← getLast?_or_cons, ← ih hbs]
      simp [skipBreaks, place, hb]

theorem Token.isBreak_of_word (h : t.kind = .word) : t.isBreak = false := by simp [isBreak, h]

/-! ## One binding -/

def Token.isEquals (t : Token) : Prop :=
  t.kind = .mark ∧ t.text = "="

/-- An initializer takes the tokens `ts`, and `rest` follows, at which no further binding starts. -/
structure Initializes (eq : Token) (us ts : List Token) (rest : List Placed) : Prop where
  splitExpression : splitExpression 0 (place (some eq) us) = (ts, rest)
  nextIs_comma : nextIs rest "," = false

/-- A name with an equals sign behind it, or behind its annotation, binds what stands behind the
sign. -/
theorem binding?_equals (hname : name.kind = .word) (heq : eq.isEquals) {p : Placed}
    (hp : p.token = name) {ps : List Placed} {b : Option Token}
    (hps : skipColonType (dropMark "!" ps) = place b (eq :: us))
    (h : splitExpression 0 (place (some eq) us) = (ts, rest)) :
    binding? p ps = some (some ⟨name.text, name.line, extentOf ts⟩, rest) := by
  obtain ⟨hk, ht⟩ := heq
  have hequals : eq.is "=" = true := by simp [Token.is, hk, ht]
  simp [binding?, target?, hp, hname, Token.isMarkOf_of_word, hps, initializer, place, nextIs,
    hequals, h]

/-- A name behind which neither an annotation nor an equals sign stands has no initializer. -/
theorem binding?_bare (hname : name.kind = .word) (ht : ∀ text ∈ ["!", ":", "="], t.is text = false)
    (before : Option Token) (us : List Token) :
    binding? ⟨before, name, (t :: us).head?⟩ (place (some name) (t :: us))
      = some (some ⟨name.text, name.line, none⟩, place (some name) (t :: us)) := by
  simp [binding?, target?, hname, Token.isMarkOf_of_word, dropMark, skipColonType, initializer, place,
    nextIs, ht]

theorem skipColonType_equals (heq : eq.isEquals) :
    skipColonType (dropMark "!" (place before (eq :: us))) = place before (eq :: us) := by
  obtain ⟨hk, ht⟩ := heq
  have hbang : eq.is "!" = false := by simp [Token.is, hk, ht]
  have hcolon : eq.is ":" = false := by simp [Token.is, hk, ht]
  simp [dropMark, skipColonType, place, nextIs, hbang, hcolon]

/-- A binding behind which no comma stands is the only one. -/
theorem bindings_last (hname : name.kind = .word) {bound : Option Binding}
    (h : binding? ⟨before, name, us.head?⟩ (place (some name) us) = some (bound, rest))
    (hcomma : nextIs rest "," = false) :
    bindings (place before (name :: us)) = (bound.toList, rest) := by
  rw [bindings_eq, skipBreaks_place_cons (Token.isBreak_of_word hname), place]
  simp [h, hcomma]

/-- Behind a comma, further bindings follow. -/
theorem bindings_comma (hname : name.kind = .word) {bound : Option Binding} {b : Option Token}
    {c : Token} {vs : List Token} (hc : c.is "," = true)
    (h : binding? ⟨before, name, us.head?⟩ (place (some name) us) = some (bound, place b (c :: vs))) :
    bindings (place before (name :: us))
      = (bound.toList ++ (bindings (place (some c) vs)).1, (bindings (place (some c) vs)).2) := by
  rw [bindings_eq, skipBreaks_place_cons (Token.isBreak_of_word hname), place]
  simp [h, place, nextIs, hc]

theorem bindings_initializes (hname : name.kind = .word) (heq : eq.isEquals)
    (h : Initializes eq us ts rest) :
    bindings (place before (name :: eq :: us))
      = ([⟨name.text, name.line, extentOf ts⟩], rest) :=
  bindings_last hname
    (binding?_equals hname heq rfl (skipColonType_equals heq) h.splitExpression) h.nextIs_comma

/-! ## The statement -/

/-- What may stand in front of a statement: nothing, or a line break. -/
def IsStart (before : Option Token) : Prop :=
  ∀ t, before = some t → t.isBreak = true

theorem isStart_none : IsStart none := nofun

theorem isStart_some (h : t.isBreak = true) : IsStart (some t) := by
  rintro _ ⟨⟩
  exact h

theorem IsStart.or {x y : Option Token} (hx : IsStart x) (hy : IsStart y) : IsStart (x.or y) := by
  cases x with
  | none => exact hy
  | some t => exact hx

def Token.isExport (t : Token) : Prop :=
  t.kind = .word ∧ t.text = "export"

theorem Token.kind_of_isWordOf {texts : List String} (h : t.isWordOf texts = true) :
    t.kind = .word := by
  simp only [isWordOf, Bool.and_eq_true, beq_iff_eq] at h
  exact h.1

theorem nextIs_keyword (hkw : kw.isWordOf bindingKeywords = true) {text : String}
    (h : text ∉ bindingKeywords) : nextIs (place before (kw :: ts)) text = false := by
  have hk := Token.kind_of_isWordOf hkw
  simp only [Token.isWordOf, Bool.and_eq_true, List.contains_iff_mem] at hkw
  simp only [nextIs, place, Token.is_of_word hk, beq_eq_false_iff_ne]
  rintro rfl
  exact h hkw.2

theorem bindingStatement?_bindings (hkw : kw.isWordOf bindingKeywords = true)
    (henum : nextIs (skipBreaks (place (some kw) us)) "enum" = false) {bound : List Binding}
    (h : bindings (skipBreaks (place (some kw) us)) = (bound, rest)) (exported : Bool) :
    bindingStatement? exported (place before (kw :: us))
      = some (.bindings exported kw.text bound, rest) := by
  rw [place, bindingStatement?]
  simp only [hkw, henum, h]
  simp

theorem startsStatement_of_isStart (hb : IsStart before) (t : Token) (after : Option Token) :
    (Placed.mk before t after).startsStatement = true := by
  cases before with
  | none => rfl
  | some x => simp [Placed.startsStatement, hb x rfl]

/-- A word at the start of a statement that matters. -/
theorem statements_of_statement? (hb : IsStart before) (ht : t.kind = .word) {s : Statement}
    {rest : List Placed} (h : statement? (place before (t :: ts)) = some (s, rest)) :
    statements 0 (place before (t :: ts)) = s :: statements 0 rest := by
  rw [place] at h ⊢
  rw [statements_cons, if_neg (by simp [Token.opens_of_word ht]),
    if_neg (by simp [Token.closes_of_word ht]),
    if_pos ⟨rfl, ht, startsStatement_of_isStart hb _ _⟩, h]

/-- A token that is no bracket and no word is passed over. -/
theorem statements_skip (ho : t.opens = false) (hc : t.closes = false)
    (hk : (t.kind == .word) = false) (depth : Nat) :
    statements depth (place before (t :: ts)) = statements depth (place (some t) ts) := by
  have hk : t.kind ≠ .word := by simpa using hk
  rw [place, statements_cons, if_neg (by simp [ho]), if_neg (by simp [hc]), if_neg (by simp [hk])]

theorem statements_skip_break (h : t.isBreak = true) (depth : Nat) :
    statements depth (place before (t :: ts)) = statements depth (place (some t) ts) := by
  have hk : t.kind = .lineBreak := by simpa [Token.isBreak] using h
  exact statements_skip (by simp [Token.opens, Token.isMarkOf, hk])
    (by simp [Token.closes, Token.isMarkOf, hk]) (by simp [hk]) depth

/-- A binding statement is taken up to the end of its bindings, and what follows it is read on. -/
theorem statements_keyword (hb : IsStart before) {export? : Option Token}
    (hx : ∀ t, export? = some t → t.isExport) (hkw : kw.isWordOf bindingKeywords = true)
    (henum : nextIs (skipBreaks (place (some kw) us)) "enum" = false) {bound : List Binding}
    (h : bindings (skipBreaks (place (some kw) us)) = (bound, rest)) :
    statements 0 (place before (export?.toList ++ kw :: us))
      = .bindings export?.isSome kw.text bound :: statements 0 rest := by
  have hstatement : statement? (place before (export?.toList ++ kw :: us))
      = some (.bindings export?.isSome kw.text bound, rest) := by
    have hk := Token.kind_of_isWordOf hkw
    have hd : ∀ b : Option Token, skipDeclare (place b (kw :: us)) = place b (kw :: us) := by
      intro b
      rw [skipDeclare, if_neg (by rw [nextIs_keyword hkw (by decide)]; decide)]
    cases export? with
    | none =>
        rw [statement?, Option.toList_none, List.nil_append,
          if_neg (by rw [nextIs_keyword hkw (by decide)]; decide), hd]
        exact bindingStatement?_bindings hkw henum h false
    | some x =>
        obtain ⟨hxk, hxt⟩ := hx x rfl
        have hxe : nextIs (place before (x :: kw :: us)) "export" = true := by
          simp [nextIs, place, Token.is_of_word hxk, hxt]
        rw [Option.toList_some, List.singleton_append, statement?, if_pos hxe, place]
        simp only [List.tail_cons, skipBreaks_place_cons (Token.isBreak_of_word hk), hd]
        rw [if_neg (by rw [nextIs_keyword hkw (by decide)]; decide),
          if_neg (by rw [nextIs_keyword hkw (by decide)]; decide)]
        exact bindingStatement?_bindings hkw henum h true
  cases export? with
  | none => exact statements_of_statement? hb (Token.kind_of_isWordOf hkw) hstatement
  | some x => exact statements_of_statement? hb (hx x rfl).1 hstatement

/-- So is one with its first name right behind the keyword. -/
theorem statements_bindings (hb : IsStart before) {export? : Option Token}
    (hx : ∀ t, export? = some t → t.isExport) (hkw : kw.isWordOf bindingKeywords = true)
    (hname : name.kind = .word) (hne : name.text ≠ "enum") {bound : List Binding}
    (h : bindings (place (some kw) (name :: us)) = (bound, rest)) :
    statements 0 (place before (export?.toList ++ kw :: name :: us))
      = .bindings export?.isSome kw.text bound :: statements 0 rest := by
  have hskip : skipBreaks (place (some kw) (name :: us)) = place (some kw) (name :: us) :=
    skipBreaks_place_cons (Token.isBreak_of_word hname) us
  refine statements_keyword hb hx hkw ?_ (by rw [hskip, h])
  rw [hskip]
  simp [nextIs, place, Token.is_of_word hname, hne]

/-- So is one with a single initializer. -/
theorem statements_binding (hb : IsStart before) {export? : Option Token}
    (hx : ∀ t, export? = some t → t.isExport) (hkw : kw.isWordOf bindingKeywords = true)
    (hname : name.kind = .word) (hne : name.text ≠ "enum") (heq : eq.isEquals)
    (h : Initializes eq us ts rest) :
    statements 0 (place before (export?.toList ++ kw :: name :: eq :: us))
      = .bindings export?.isSome kw.text [⟨name.text, name.line, extentOf ts⟩]
        :: statements 0 rest :=
  statements_bindings hb hx hkw hname hne (bindings_initializes hname heq h)

end TableRoster.Source
