import Mathlib
import TableRoster.Proofs.Source.Binding

/-! # Forms of expressions

An operand, an operand with a `!` behind it, and an operand that is given a type: as rows of
tokens, all of them are whole. -/

namespace TableRoster.Source

/-! ## Calm tokens and groups -/

/-- A token that is no bracket and separates nothing. -/
structure Token.Calm (t : Token) : Prop where
  opens : t.opens = false
  closes : t.closes = false
  separates : t.separates = false

namespace Token

variable {t : Token}

theorem calm_of_kind (hm : t.kind ≠ .mark) (hb : t.kind ≠ .lineBreak) : t.Calm := by
  constructor <;> simp [opens, closes, separates, isMarkOf, isBreak, hm, hb]

theorem calm_of_word (h : t.kind = .word) : t.Calm :=
  calm_of_kind (by simp [h]) (by simp [h])

theorem mem_of_isMarkOf {texts : List String} (h : t.isMarkOf texts = true) :
    t.kind = .mark ∧ t.text ∈ texts := by
  simpa [isMarkOf] using h

theorem calm_of_isMarkOf {texts : List String} (h : t.isMarkOf texts = true)
    (ht : ∀ x ∈ texts, x ∉ ["(", "[", "\x7b", ")", "]", "\x7d", ",", ";"]) : t.Calm := by
  obtain ⟨hk, hx⟩ := mem_of_isMarkOf h
  have hne := ht _ hx
  simp only [List.mem_cons, List.not_mem_nil, or_false, not_or] at hne
  constructor <;> simp [opens, closes, separates, isMarkOf, isBreak, hk, hne]

theorem Calm.nest? (h : t.Calm) (depth : Nat) : t.nest? depth = some depth := by
  simp [Token.nest?, h.opens, h.closes]

end Token

theorem whole_of_calm {ts : List Token} (h : ∀ t ∈ ts, t.Calm) : Whole 0 ts := by
  induction ts with
  | nil => exact ⟨rfl, by simp⟩
  | cons t ts ih =>
      rw [List.forall_mem_cons] at h
      exact (ih h.2).cons (h.1.nest? 0) h.1.separates

/-- Inside of a group nothing separates the whole. -/
theorem whole_inside {c : Token} (hc : c.closes = true) (ho : c.opens = false) {ts : List Token}
    {depth : Nat} (h : nesting? depth ts = some 0) : Whole (depth + 1) (ts ++ [c]) := by
  induction ts generalizing depth with
  | nil =>
      obtain rfl : depth = 0 := Option.some.inj h
      exact Whole.cons_iff.2 ⟨by simp, 0, by simp [Token.nest?, hc, ho], whole_of_calm (by simp)⟩
  | cons t ts ih =>
      rw [nesting?_cons] at h
      obtain ⟨d, hd, hts⟩ := Option.bind_eq_some_iff.1 h
      have hwithin := Token.nest?_eq_some.2 (Token.nest?_eq_some.1 hd).within
      exact Whole.cons_iff.2 ⟨by simp, d + 1, hwithin, ih hts⟩

theorem whole_group {o c : Token} (ho : o.opens = true) (hc : c.closes = true)
    (hco : c.opens = false) (hs : o.separates = false) {ts : List Token}
    (h : nesting? 0 ts = some 0) : Whole 0 (o :: (ts ++ [c])) :=
  Whole.cons_iff.2 ⟨fun _ => hs, 1, by simp [Token.nest?, ho], whole_inside hc hco h⟩

/-! ## Forms -/

variable {ts : List Token}

/-- A literal. A number may start with its point, and have a signed exponent. -/
inductive Literal : List Token → Prop
  | single {t : Token} (ht : t.kind ∈ [Kind.string, .template, .regex, .number]) : Literal [t]
  | fraction {p t : Token} (hp : p.isMarkOf ["."] = true) (ht : t.kind = .number) : Literal [p, t]
  | exponent {s u : Token} {ts : List Token} (h : Literal ts) (hs : s.isMarkOf ["+", "-"] = true)
      (hu : u.kind = .number) : Literal (ts ++ [s, u])
  | group {o c : Token} {ts : List Token} (ho : o.isMarkOf ["[", "\x7b"] = true)
      (h : nesting? 0 ts = some 0) (hc : c.isMarkOf ["]", "\x7d"] = true) :
      Literal (o :: (ts ++ [c]))

/-- A name, a literal, or a name applied to arguments. -/
inductive Operand : List Token → Prop
  | name {t : Token} (ht : t.kind = .word) : Operand [t]
  | literal {ts : List Token} (h : Literal ts) : Operand ts
  | call {t o c : Token} {ts : List Token} (ht : t.kind = .word) (ho : o.isMarkOf ["("] = true)
      (h : nesting? 0 ts = some 0) (hc : c.isMarkOf [")"] = true) : Operand (t :: o :: (ts ++ [c]))

/-- A type reference up to its closing angles, with so many angles open. -/
inductive OpenReference : Nat → List Token → Prop
  | name {t : Token} (ht : t.kind = .word) : OpenReference 0 [t]
  | argument {n : Nat} {t a : Token} {ts : List Token} (ht : t.kind = .word)
      (ha : a.isMarkOf ["<"] = true) (h : OpenReference n ts) : OpenReference (n + 1) (t :: a :: ts)

/-- A type reference: a name, or a name with one type argument. -/
inductive TypeReference : List Token → Prop
  | mk {n : Nat} {ts cs : List Token} (h : OpenReference n ts) (hcs : ∀ c ∈ cs, 0 < closedAngles c)
      (hn : (cs.map closedAngles).sum = n) : TypeReference (ts ++ cs)

/-- An operand by itself, with `!` behind it, or with a type given by `as` or `satisfies`. -/
inductive Form : List Token → Prop
  | plain {ts : List Token} (h : Operand ts) : Form ts
  | asserted {ts : List Token} {b : Token} (h : Operand ts) (hb : b.isMarkOf ["!"] = true) :
      Form (ts ++ [b])
  | typed {ts us : List Token} {k : Token} (h : Operand ts)
      (hk : k.isWordOf ["as", "satisfies"] = true) (hus : TypeReference us) : Form (ts ++ k :: us)

theorem calm_of_closedAngles {t : Token} (h : 0 < closedAngles t) : t.Calm := by
  unfold closedAngles at h
  split at h
  · exact Token.calm_of_isMarkOf ‹_› (by decide)
  · simp at h

theorem whole_brackets {o c : Token} {opening closing : List String}
    (ho : o.isMarkOf opening = true) (hc : c.isMarkOf closing = true)
    (hos : ∀ x ∈ opening, x ∈ ["(", "[", "\x7b"]) (hcs : ∀ x ∈ closing, x ∈ [")", "]", "\x7d"])
    (h : nesting? 0 ts = some 0) : Whole 0 (o :: (ts ++ [c])) := by
  obtain ⟨hok, hot⟩ := Token.mem_of_isMarkOf ho
  obtain ⟨hck, hct⟩ := Token.mem_of_isMarkOf hc
  have hot := hos _ hot
  have hct := hcs _ hct
  simp only [List.mem_cons, List.not_mem_nil, or_false] at hot hct
  refine whole_group ?_ ?_ ?_ ?_ h
  · simp [Token.opens, Token.isMarkOf, hok, hot]
  · simp [Token.closes, Token.isMarkOf, hck, hct]
  · rcases hct with h | h | h <;> simp [Token.opens, Token.isMarkOf, h]
  · rcases hot with h | h | h <;>
      simp [Token.separates, Token.isMarkOf, Token.isBreak, hok, h]

theorem Literal.whole (h : Literal ts) : Whole 0 ts := by
  induction h with
  | @single t ht =>
      refine whole_of_calm fun x hx => ?_
      obtain rfl := List.mem_singleton.1 hx
      exact Token.calm_of_kind (by rintro h; simp [h] at ht) (by rintro h; simp [h] at ht)
  | fraction hp ht =>
      refine whole_of_calm ?_
      simp [Token.calm_of_isMarkOf hp, Token.calm_of_kind, ht]
  | exponent _ hs hu ih =>
      refine ih.append (whole_of_calm ?_)
      simp [Token.calm_of_isMarkOf hs, Token.calm_of_kind, hu]
  | group ho h hc => exact whole_brackets ho hc (by decide) (by decide) h

theorem Operand.whole (h : Operand ts) : Whole 0 ts := by
  cases h with
  | name ht => exact whole_of_calm (by simp [Token.calm_of_word ht])
  | literal h => exact h.whole
  | call ht ho h hc =>
      have hcalm := Token.calm_of_word ht
      exact (whole_brackets ho hc (by decide) (by decide) h).cons (hcalm.nest? 0) hcalm.separates

theorem OpenReference.calm {n : Nat} (h : OpenReference n ts) : ∀ t ∈ ts, t.Calm := by
  induction h with
  | name ht => simp [Token.calm_of_word ht]
  | argument ht ha _ ih =>
      simpa [Token.calm_of_word ht, Token.calm_of_isMarkOf ha] using ih

theorem TypeReference.calm (h : TypeReference ts) : ∀ t ∈ ts, t.Calm := by
  cases h with
  | mk h hcs _ =>
      intro t ht
      rcases List.mem_append.1 ht with ht | ht
      · exact h.calm t ht
      · exact calm_of_closedAngles (hcs t ht)

theorem Form.whole (h : Form ts) : Whole 0 ts := by
  cases h with
  | plain h => exact h.whole
  | asserted h hb => exact h.whole.append (whole_of_calm (by simp [Token.calm_of_isMarkOf hb]))
  | typed h hk hus =>
      have hk := Token.calm_of_word (Token.kind_of_isWordOf hk)
      exact h.whole.append (whole_of_calm (by simpa [hk] using hus.calm))

/-! ## The last token of a form -/

/-- What ends a form: no mark, a closing bracket, `!`, or a closing angle. -/
inductive Token.EndsForm (t : Token) : Prop
  | solid (h : t.kind ≠ .mark)
  | bracket (h : t.isMarkOf [")", "]", "\x7d"] = true)
  | asserted (h : t.isMarkOf ["!"] = true)
  | angle (h : 0 < closedAngles t)

variable {t : Token}

theorem Token.endsForm_of_closing {texts : List String} (h : t.isMarkOf texts = true)
    (ht : ∀ x ∈ texts, x ∈ [")", "]", "\x7d"]) : t.EndsForm := by
  obtain ⟨hk, hx⟩ := mem_of_isMarkOf h
  exact .bracket (by simpa [isMarkOf, hk] using ht _ hx)

theorem Literal.endsForm (h : Literal ts) (ht : ts.getLast? = some t) : t.EndsForm := by
  cases h with
  | @single x hk =>
      obtain rfl : x = t := by simpa using ht
      exact .solid (by rintro h; simp [h] at hk)
  | fraction _ hk =>
      obtain rfl := Option.some.inj ht
      exact .solid (by simp [hk])
  | @exponent s u us _ _ hk =>
      obtain rfl : u = t := by simpa using ht
      exact .solid (by simp [hk])
  | @group o c us _ _ hc =>
      obtain rfl : c = t := by simpa [List.getLast?_cons] using ht
      exact Token.endsForm_of_closing hc (by decide)

theorem Operand.endsForm (h : Operand ts) (ht : ts.getLast? = some t) : t.EndsForm := by
  cases h with
  | name hk =>
      obtain rfl := Option.some.inj ht
      exact .solid (by simp [hk])
  | literal h => exact h.endsForm ht
  | @call _ o c us _ _ _ hc =>
      obtain rfl : c = t := by simpa [List.getLast?_cons] using ht
      exact Token.endsForm_of_closing hc (by decide)

theorem OpenReference.endsForm {n : Nat} (h : OpenReference n ts) (ht : ts.getLast? = some t) :
    t.EndsForm := by
  induction h with
  | name hk =>
      obtain rfl := Option.some.inj ht
      exact .solid (by simp [hk])
  | @argument n u a us _ _ h ih =>
      refine ih ?_
      cases h <;> simpa [List.getLast?_cons] using ht

theorem TypeReference.endsForm (h : TypeReference ts) (ht : ts.getLast? = some t) : t.EndsForm := by
  cases h with
  | @mk _ us cs h hcs _ =>
      rw [List.getLast?_append] at ht
      cases hc : cs.getLast? with
      | none =>
          rw [hc, Option.none_or] at ht
          exact h.endsForm ht
      | some c =>
          rw [hc, Option.some_or] at ht
          obtain rfl := Option.some.inj ht
          exact .angle (hcs _ (List.mem_of_getLast? hc))

theorem TypeReference.ne_nil (h : TypeReference ts) : ts ≠ [] := by
  cases h with
  | mk h _ _ => cases h <;> simp

theorem Form.endsForm (h : Form ts) (ht : ts.getLast? = some t) : t.EndsForm := by
  cases h with
  | plain h => exact h.endsForm ht
  | @asserted us b _ hb =>
      obtain rfl : b = t := by simpa using ht
      exact .asserted hb
  | @typed us vs k _ _ hvs =>
      obtain ⟨v, hv⟩ := Option.ne_none_iff_exists'.1 (mt List.getLast?_eq_none_iff.1 hvs.ne_nil)
      obtain rfl : v = t := by
        rw [List.getLast?_append, List.getLast?_cons, hv] at ht
        simpa using ht
      exact hvs.endsForm hv

end TableRoster.Source
