import TableRoster.Proofs.Source.Reads

/-! # Reading from another place

Of what stands before it, reading a text depends on two things only: whether a slash may start a
regular expression, and whether the last token is a line break. Otherwise its tokens move along with
the place it starts from. -/

namespace TableRoster.Source

/-- The same token, so many characters and lines further on. -/
def Token.moved (o l : Nat) (t : Token) : Token :=
  { t with start := t.start + o, stop := t.stop + o, line := t.line + l }

namespace Reader

def behindBreak (rd : Reader) : Bool :=
  rd.last.any (·.isBreak)

/-- A place that reading goes on from as from another, so many characters and lines before. -/
structure Moved (o l : Nat) (rd rd₂ : Reader) : Prop where
  offset : rd₂.offset = rd.offset + o
  line : rd₂.line = rd.line + l
  regexAllowed : rd₂.regexAllowed = rd.regexAllowed
  behindBreak : rd₂.behindBreak = rd.behindBreak

theorem breakToken?_eq (rd : Reader) (x : List Char) :
    rd.breakToken? x = if rd.behindBreak then none
      else some ⟨.lineBreak, String.ofList (x.take 1), rd.offset, rd.offset + 1, rd.line⟩ := by
  obtain ⟨offset, line, last, solid⟩ := rd
  cases last with
  | none => rfl
  | some t =>
      obtain ⟨k, _, _, _, _⟩ := t
      cases k <;> rfl

theorem breakToken?_eq_some {rd : Reader} {x : List Char} {t : Token} (h : rd.breakToken? x = some t) :
    rd.behindBreak = false ∧
      t = ⟨.lineBreak, String.ofList (x.take 1), rd.offset, rd.offset + 1, rd.line⟩ := by
  rw [breakToken?_eq] at h
  split at h
  · cases h
  · rename_i hlast
    exact ⟨by simpa using hlast, (Option.some.inj h).symm⟩

/-- Two places at which a token was read, or none, and that agreed before. -/
theorem advance_regexAllowed {rd rd₂ : Reader} {e : Element} {x : List Char} {f : Token → Token}
    (hk : ∀ t, (f t).kind = t.kind) (ht : ∀ t, (f t).text = t.text)
    (h : rd₂.token? e x = (rd.token? e x).map f) (hr : rd₂.regexAllowed = rd.regexAllowed) :
    (rd₂.advance e x).regexAllowed = (rd.advance e x).regexAllowed := by
  unfold advance
  rw [h]
  cases rd.token? e x with
  | none => exact hr
  | some t =>
      have hb : (f t).isBreak = t.isBreak := by simp [Token.isBreak, hk]
      cases htb : t.isBreak with
      | true => simpa [Option.filter, hb, htb, regexAllowed] using hr
      | false =>
          simp [Option.filter, hb, htb, regexAllowed, hk, ht, Token.closes, Token.isMarkOf]

theorem advance_behindBreak (rd : Reader) (e : Element) (x : List Char) :
    (rd.advance e x).behindBreak = ((rd.token? e x).map (·.isBreak)).getD rd.behindBreak := by
  unfold behindBreak advance
  cases rd.token? e x <;> rfl

namespace Moved

variable {o l : Nat} {rd rd₂ : Reader}

theorem token? (h : Moved o l rd rd₂) (e : Element) (x : List Char) :
    rd₂.token? e x = (rd.token? e x).map (Token.moved o l) := by
  have hb : rd₂.breakToken? x = (rd.breakToken? x).map (Token.moved o l) := by
    rw [breakToken?_eq, breakToken?_eq, h.behindBreak, h.offset, h.line]
    split
    · rfl
    · simp [Token.moved, Nat.add_right_comm]
  cases e with
  | lineBreak => exact hb
  | comment =>
      simp only [Reader.token?]
      split
      · exact hb
      · rfl
  | token k => simp [Reader.token?, Token.moved, h.offset, h.line, Nat.add_right_comm]
  | blank | stray => rfl

theorem advance (h : Moved o l rd rd₂) (e : Element) (x : List Char) :
    Moved o l (rd.advance e x) (rd₂.advance e x) where
  offset := by simp only [Reader.advance, h.offset]; omega
  line := by simp only [Reader.advance, h.line]; omega
  regexAllowed := advance_regexAllowed (f := Token.moved o l) (fun _ => rfl) (fun _ => rfl)
    (h.token? e x) h.regexAllowed
  behindBreak := by
    rw [advance_behindBreak, advance_behindBreak, h.token? e x]
    cases rd.token? e x with
    | none => exact h.behindBreak
    | some t => rfl

theorem lex (h : Moved o l rd rd₂) (s : List Char) :
    Source.lex rd₂ s = (Source.lex rd s).map (Token.moved o l) := by
  fun_induction Source.lex rd s generalizing rd₂
  case case1 => simp [Source.lex]
  case case2 rd c r found x ih =>
      rw [Source.lex, List.map_append, ← ih (h.advance _ _), h.regexAllowed, h.token?]
      congr 1
      cases rd.token? found.1 x <;> rfl

theorem reads (h : Moved o l rd rd₂) {w s : List Char} {ts : List Token} {rd' : Reader}
    (hr : Reads w rd s ts rd') :
    ∃ rd₂', Reads w rd₂ s (ts.map (Token.moved o l)) rd₂' ∧ Moved o l rd' rd₂' := by
  induction hr generalizing rd₂ with
  | nil => exact ⟨rd₂, .nil, h⟩
  | @cons rd rd' c r x s e ts next split _ ih =>
      obtain ⟨rd₂', hr, hm⟩ := ih (h.advance e x)
      refine ⟨rd₂', ?_, hm⟩
      have hc := Reads.cons (h.regexAllowed ▸ next) split hr
      rw [h.token?] at hc
      rw [List.map_append]
      cases ht : rd.token? e x <;> rw [ht] at hc <;> exact hc

end Moved

/-! ## Behind a line break -/

theorem advance_regexAllowed_of_break (rd : Reader) {e : Element} {x : List Char}
    (h : ∀ t, rd.token? e x = some t → t.isBreak) :
    (rd.advance e x).regexAllowed = rd.regexAllowed := by
  unfold regexAllowed advance
  cases ht : rd.token? e x with
  | none => rfl
  | some t => simp [Option.filter, h t ht]

/-- Behind a line break, an element makes the token that it makes elsewhere, or none where that is
a line break. -/
theorem token?_behindBreak {o l : Nat} {rd rd₂ : Reader} (ho : rd₂.offset = rd.offset + o)
    (hl : rd₂.line = rd.line + l) (hb : rd₂.behindBreak = true) (e : Element) (x : List Char) :
    rd₂.token? e x = (rd.token? e x).map (Token.moved o l) ∨
      rd₂.token? e x = none ∧ ∀ t, rd.token? e x = some t → t.isBreak := by
  have hbreak : ∀ t, rd.breakToken? x = some t → t.isBreak := by
    intro t ht
    rw [breakToken?_eq] at ht
    split at ht <;> cases ht
    rfl
  cases e with
  | lineBreak => exact Or.inr ⟨by simp [token?, breakToken?_eq, hb], hbreak⟩
  | comment =>
      simp only [token?]
      split
      · exact Or.inr ⟨by simp [breakToken?_eq, hb], hbreak⟩
      · exact Or.inl rfl
  | token k =>
      left
      simp [token?, Token.moved, ho, hl, Nat.add_right_comm]
  | blank | stray => exact Or.inl rfl

/-- Behind a line break, a text is read as elsewhere, but a line break at its start is lost. -/
theorem lex_behindBreak {o l : Nat} {rd rd₂ : Reader} (ho : rd₂.offset = rd.offset + o)
    (hl : rd₂.line = rd.line + l) (hr : rd₂.regexAllowed = rd.regexAllowed)
    (hb : rd₂.behindBreak = true) (s : List Char) :
    ∃ bs ts, lex rd s = bs ++ ts ∧ (∀ t ∈ bs, t.isBreak) ∧ lex rd₂ s = ts.map (Token.moved o l) := by
  fun_induction lex rd s generalizing rd₂
  case case1 => exact ⟨[], [], by simp, by simp, by simp [lex]⟩
  case case2 rd c r found x ih =>
      have ho' : (rd₂.advance found.1 x).offset = (rd.advance found.1 x).offset + o := by
        simp only [advance, ho]; omega
      have hl' : (rd₂.advance found.1 x).line = (rd.advance found.1 x).line + l := by
        simp only [advance, hl]; omega
      have hlex : lex rd₂ (c :: r)
          = (rd₂.token? found.1 x).toList ++ lex (rd₂.advance found.1 x) found.2 := by
        rw [lex, hr]
      rw [hlex]
      rcases token?_behindBreak ho hl hb found.1 x with h | ⟨h, hbreak⟩
      · have hr' : (rd₂.advance found.1 x).regexAllowed = (rd.advance found.1 x).regexAllowed :=
          advance_regexAllowed (f := Token.moved o l) (fun _ => rfl) (fun _ => rfl) h hr
        cases ht : rd.token? found.1 x with
        | none =>
            rw [ht] at h
            rw [h]
            exact ih ho' hl' hr' (by rw [advance_behindBreak, h]; exact hb)
        | some t =>
            rw [ht] at h
            have hm : Moved o l (rd.advance found.1 x) (rd₂.advance found.1 x) :=
              ⟨ho', hl', hr', by rw [advance_behindBreak, advance_behindBreak, h, ht]; rfl⟩
            exact ⟨[], _, rfl, by simp, by rw [h, hm.lex]; rfl⟩
      · obtain ⟨bs, ts, hts, hbs, hmap⟩ := ih ho' hl'
          (by rw [advance_regexAllowed_of_break _ hbreak, advance_regexAllowed_of_break _ (by simp [h]), hr])
          (by rw [advance_behindBreak, h]; exact hb)
        refine ⟨(rd.token? found.1 x).toList ++ bs, ts, ?_, ?_, ?_⟩
        · rw [hts, List.append_assoc]
        · intro t ht
          rw [List.mem_append, Option.mem_toList] at ht
          exact ht.elim (hbreak t) (hbs t)
        · rw [h, hmap]; rfl

end Reader

end TableRoster.Source
