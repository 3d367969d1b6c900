import TableRoster.Source.Declaration

/-! # Complete expressions

A text is a complete expression if nothing in it is left open and nothing outside of its brackets
ends it. In a row of tokens, such an expression is taken as a whole. -/

namespace TableRoster.Source

/-! ## Nesting -/

/-- The nesting behind one more token; there is none if it closes what no token opened. -/
def Token.nest? (depth : Nat) (t : Token) : Option Nat :=
  if t.opens then some (depth + 1)
  else if t.closes then if depth = 0 then none else some (depth - 1)
  else some depth

/-- The nesting behind some tokens. -/
def nesting? (depth : Nat) (ts : List Token) : Option Nat :=
  ts.foldlM Token.nest? depth

/-- How many brackets of one kind are open behind one more token, by how many it opens and closes;
there is no such number if it closes more than are open. -/
def Token.tally? (opened closed : Token → Nat) (n : Nat) (t : Token) : Option Nat :=
  if closed t ≤ n then some (n - closed t + opened t) else none

/-- How many brackets of one kind are open behind some tokens. -/
def tally? (opened closed : Token → Nat) (n : Nat) (ts : List Token) : Option Nat :=
  ts.foldlM (Token.tally? opened closed) n

/-- One for a mark of these texts. -/
def Token.countOf (texts : List String) (t : Token) : Nat :=
  if t.isMarkOf texts then 1 else 0

/-- A comma, a semicolon or a line break. -/
def Token.separates (t : Token) : Bool :=
  t.isMarkOf [",", ";"] || t.isBreak

/-- All brackets of a row close, and nothing outside of them separates. -/
structure Whole (depth : Nat) (ts : List Token) : Prop where
  nested : nesting? depth ts = some 0
  unbroken : ∀ us t vs, ts = us ++ t :: vs → nesting? depth us = some 0 → t.separates = false

/-- A text in which nothing is left open: what is read of it ends in front of a semicolon behind it. -/
def Sealed (e : String) : Prop :=
  ∃ line, tokens (e ++ ";") = tokens e ++ [⟨.mark, ";", e.length, e.length + 1, line⟩]

/-- A text that is read up to a semicolon behind it, and that starts and ends with a token. -/
structure Alone (e : String) : Prop where
  read : ∃ line, tokens (e ++ ";") = tokens e ++ [⟨.mark, ";", e.length, e.length + 1, line⟩]
  starts : (tokens e).head?.map (·.start) = some 0
  ends : (tokens e).getLast?.map (·.stop) = some e.length

/-- A text that is one expression: it is read alone, and its tokens are whole. -/
structure Complete (e : String) : Prop extends Alone e where
  whole : Whole 0 (tokens e)

/-- What a token does to the nesting. -/
inductive Token.Nests (t : Token) : Nat → Nat → Prop
  | opens {d : Nat} (ho : t.opens = true) : t.Nests d (d + 1)
  | closes {d : Nat} (ho : t.opens = false) (hc : t.closes = true) : t.Nests (d + 1) d
  | stays {d : Nat} (ho : t.opens = false) (hc : t.closes = false) : t.Nests d d

theorem Token.nest?_eq_some {t : Token} {depth d : Nat} : t.nest? depth = some d ↔ t.Nests depth d := by
  constructor
  · intro h
    unfold nest? at h
    split at h
    · rename_i ho
      cases h
      exact .opens ho
    rename_i ho
    split at h
    · rename_i hc
      split at h <;> cases h
      rename_i hdepth
      obtain ⟨d, rfl⟩ := Nat.exists_eq_succ_of_ne_zero hdepth
      exact .closes (by simpa using ho) hc
    · rename_i hc
      cases h
      exact .stays (by simpa using ho) (by simpa using hc)
  · intro h
    cases h with
    | opens ho => simp [nest?, ho]
    | closes ho hc => simp [nest?, ho, hc]
    | stays ho hc => simp [nest?, ho, hc]

/-- A token nests alike within one more bracket. -/
theorem Token.Nests.within {t : Token} {depth d : Nat} (h : t.Nests depth d) :
    t.Nests (depth + 1) (d + 1) := by
  cases h with
  | opens ho => exact .opens ho
  | closes ho hc => exact .closes ho hc
  | stays ho hc => exact .stays ho hc

theorem nesting?_cons (depth : Nat) (t : Token) (ts : List Token) :
    nesting? depth (t :: ts) = (t.nest? depth).bind (nesting? · ts) := rfl

theorem tally?_cons {opened closed : Token → Nat} {n m : Nat} {t : Token} {ts : List Token}
    (h : tally? opened closed n (t :: ts) = some m) :
    ∃ k, t.tally? opened closed n = some k ∧ tally? opened closed k ts = some m :=
  Option.bind_eq_some_iff.1 h

theorem Token.nest?_of_isBreak {t : Token} (h : t.isBreak = true) (depth : Nat) :
    t.nest? depth = some depth := by
  have hk : t.kind = .lineBreak := by simpa [isBreak] using h
  simp [nest?, opens, closes, isMarkOf, hk]

/-- A row extends from its first token to its last, if these are no line breaks. -/
theorem extentOf_eq {ts : List Token} {x y : Token} (hx : ts.head? = some x)
    (hxb : x.isBreak = false) (hy : ts.getLast? = some y) (hyb : y.isBreak = false) :
    extentOf ts = some (x.start, y.stop) := by
  have hhead : (ts.filter (!·.isBreak)).head? = some x := by
    obtain ⟨us, rfl⟩ := List.head?_eq_some_iff.1 hx
    simp [hxb]
  have hlast : (ts.filter (!·.isBreak)).getLast? = some y := by
    obtain ⟨us, rfl⟩ := List.getLast?_eq_some_iff.1 hy
    simp [hyb]
  simp only [extentOf, hhead, hlast]

/-! ## Whole rows -/

namespace Whole

variable {depth : Nat} {t : Token} {ts : List Token}

theorem tail (h : Whole depth (t :: ts)) : ∃ d, t.nest? depth = some d ∧ Whole d ts := by
  obtain ⟨d, hd, hn⟩ := Option.bind_eq_some_iff.1 ((nesting?_cons ..).symm.trans h.nested)
  refine ⟨d, hd, hn, ?_⟩
  rintro us x vs rfl hus
  exact h.unbroken (t :: us) x vs rfl (by rw [nesting?_cons, hd]; exact hus)

theorem head_not_separates (h : Whole 0 (t :: ts)) : t.separates = false :=
  h.unbroken [] t ts rfl rfl

theorem cons_iff : Whole depth (t :: ts) ↔
    (depth = 0 → t.separates = false) ∧ ∃ d, t.nest? depth = some d ∧ Whole d ts := by
  constructor
  · intro h
    refine ⟨?_, h.tail⟩
    rintro rfl
    exact h.head_not_separates
  · rintro ⟨hs, d, hd, h⟩
    refine ⟨by rw [nesting?_cons, hd]; exact h.nested, ?_⟩
    rintro (_ | ⟨u, us⟩) x vs hts hus
    · cases hts
      exact hs (Option.some.inj hus)
    · cases hts
      rw [nesting?_cons, hd] at hus
      exact h.unbroken us x vs rfl hus

/-- A token that neither nests nor separates, in front of a whole row. -/
theorem cons (hn : t.nest? 0 = some 0) (hs : t.separates = false) (h : Whole 0 ts) :
    Whole 0 (t :: ts) :=
  cons_iff.2 ⟨fun _ => hs, 0, hn, h⟩

theorem append {us : List Token} (h : Whole depth ts) (hus : Whole 0 us) : Whole depth (ts ++ us) := by
  induction ts generalizing depth with
  | nil =>
      obtain rfl : depth = 0 := Option.some.inj h.nested
      exact hus
  | cons t ts ih =>
      obtain ⟨hs, d, hd, ht⟩ := cons_iff.1 h
      exact cons_iff.2 ⟨hs, d, hd, ih ht⟩

instance decidable : (depth : Nat) → (ts : List Token) → Decidable (Whole depth ts)
  | depth, [] => decidable_of_iff (depth = 0)
      ⟨fun h => ⟨congrArg some h, by simp⟩, fun h => Option.some.inj h.nested⟩
  | depth, t :: ts =>
      match hd : t.nest? depth with
      | none => isFalse fun h => by simp [cons_iff, hd] at h
      | some d =>
          have := decidable d ts
          decidable_of_iff ((depth = 0 → t.separates = false) ∧ Whole d ts) (by simp [cons_iff, hd])

theorem last_not_isBreak (h : Whole depth ts) (hl : ts.getLast? = some t) : t.isBreak = false := by
  obtain ⟨us, rfl⟩ := List.getLast?_eq_some_iff.1 hl
  cases hb : t.isBreak with
  | false => rfl
  | true =>
      have hn : nesting? depth us = some 0 := by
        have hn := h.nested
        rw [nesting?, List.foldlM_append] at hn
        obtain ⟨d, hd, hd'⟩ := Option.bind_eq_some_iff.1 hn
        rw [← nesting?, nesting?_cons, Token.nest?_of_isBreak hb] at hd'
        exact hd.trans hd'
      have hs := h.unbroken us t [] rfl hn
      simp [Token.separates, hb] at hs

theorem head_not_isBreak (h : Whole 0 ts) (hh : ts.head? = some t) : t.isBreak = false := by
  obtain ⟨us, rfl⟩ := List.head?_eq_some_iff.1 hh
  have hs := h.head_not_separates
  simp only [Token.separates, Bool.or_eq_false_iff] at hs
  exact hs.2

theorem map {f : Token → Token} (hf : ∀ d t, (f t).nest? d = t.nest? d)
    (hs : ∀ t, (f t).separates = t.separates) (h : Whole depth ts) : Whole depth (ts.map f) := by
  have hn : ∀ us d, nesting? d (us.map f) = nesting? d us := by
    intro us d
    simp only [nesting?, List.foldlM_map, hf]
  refine ⟨(hn ts depth).trans h.nested, ?_⟩
  intro us t vs hts hus
  obtain ⟨us', ws, rfl, rfl, hws⟩ := List.map_eq_append_iff.1 hts
  obtain ⟨t', vs', rfl, rfl, rfl⟩ := List.map_eq_cons_iff.1 hws
  rw [hs]
  exact h.unbroken us' t' vs' rfl ((hn us' depth).symm.trans hus)

end Whole

instance Sealed.decidable (e : String) : Decidable (Sealed e) :=
  let line := ((tokens (e ++ ";")).getLast?.map (·.line)).getD 0
  decidable_of_iff (tokens (e ++ ";") = tokens e ++ [⟨.mark, ";", e.length, e.length + 1, line⟩])
    ⟨fun h => ⟨line, h⟩, fun ⟨n, h⟩ => by simp [line, h]⟩

theorem Alone.isSealed {e : String} (h : Alone e) : Sealed e := h.read

instance Alone.decidable (e : String) : Decidable (Alone e) :=
  decidable_of_iff (Sealed e ∧ (tokens e).head?.map (·.start) = some 0 ∧
      (tokens e).getLast?.map (·.stop) = some e.length)
    ⟨fun ⟨h, ha, hb⟩ => ⟨h, ha, hb⟩, fun h => ⟨h.isSealed, h.starts, h.ends⟩⟩

instance Complete.decidable (e : String) : Decidable (Complete e) :=
  decidable_of_iff (Alone e ∧ Whole 0 (tokens e))
    ⟨fun ⟨h, hw⟩ => ⟨h, hw⟩, fun h => ⟨h.toAlone, h.whole⟩⟩

/-! ## Tokens with their neighbours -/

/-- The tokens of a row, each with its neighbours; `next` stands behind the row. -/
def placeTo (before next : Option Token) : List Token → List Placed
  | [] => []
  | t :: ts => ⟨before, t, ts.head?.or next⟩ :: placeTo (some t) next ts

theorem getLast?_or_cons (before : Option Token) (t : Token) (ts : List Token) :
    ts.getLast?.or (some t) = (t :: ts).getLast?.or before := by
  rw [List.getLast?_cons]
  cases ts.getLast? <;> rfl

theorem place_append (before : Option Token) (ts us : List Token) :
    place before (ts ++ us)
      = placeTo before us.head? ts ++ place (ts.getLast?.or before) us := by
  induction ts generalizing before with
  | nil => rfl
  | cons t ts ih =>
      have hh : (ts ++ us).head? = ts.head?.or us.head? := by cases ts <;> simp
      rw [List.cons_append, place, ih, hh, getLast?_or_cons before, placeTo, List.cons_append]

theorem map_token_placeTo (before next : Option Token) (ts : List Token) :
    (placeTo before next ts).map Placed.token = ts := by
  induction ts generalizing before with
  | nil => rfl
  | cons t ts ih => rw [placeTo, List.map_cons, ih]

theorem map_token_place (before : Option Token) (ts : List Token) :
    (place before ts).map Placed.token = ts := by
  have := place_append before ts []
  rw [List.append_nil, show place (ts.getLast?.or before) [] = [] from rfl, List.append_nil] at this
  rw [this, map_token_placeTo]

/-- An expression takes a token that does not end it. -/
theorem splitExpression_step {depth d : Nat} {p : Placed} (hs : depth = 0 → p.token.separates = false)
    (hd : p.token.nest? depth = some d) (ps : List Placed) :
    splitExpression depth (p :: ps) = (p.token :: (splitExpression d ps).1, (splitExpression d ps).2) := by
  rw [splitExpression]
  simp only
  cases Token.nest?_eq_some.1 hd with
  | opens ho => rw [if_pos ho]
  | closes ho hc =>
      rw [if_neg (by simp [ho]), if_pos hc, if_neg (Nat.succ_ne_zero d), Nat.add_sub_cancel]
  | stays ho hc =>
      simp only [Token.separates, Bool.or_eq_false_iff] at hs
      rw [if_neg (by simp [ho]), if_neg (by simp [hc]),
        if_neg (by simp; exact fun h0 => (hs h0).1),
        if_neg (by simp; exact fun h0 hb => absurd hb (by simp [(hs h0).2]))]

/-- An expression goes on behind a whole row. -/
theorem splitExpression_whole {depth : Nat} {ts : List Token} (h : Whole depth ts)
    (before next : Option Token) (ps : List Placed) :
    splitExpression depth (placeTo before next ts ++ ps)
      = (ts ++ (splitExpression 0 ps).1, (splitExpression 0 ps).2) := by
  induction ts generalizing depth before with
  | nil =>
      obtain rfl : depth = 0 := Option.some.inj h.nested
      rfl
  | cons t ts ih =>
      obtain ⟨hs, d, hd, ht⟩ := Whole.cons_iff.1 h
      rw [placeTo, List.cons_append, splitExpression_step hs hd, ih ht, List.cons_append]

end TableRoster.Source
