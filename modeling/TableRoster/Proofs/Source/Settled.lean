import TableRoster.Proofs.Source.Binding

/-! # Statements up to a semicolon

A semicolon outside of all brackets is passed by nothing: what stands before it is taken without a
look behind it, and reading goes on there from the start. -/

namespace TableRoster.Source

/-! ## Settled rows -/

/-- A row that ends outside of all brackets, read from a given depth, and that holds no opening
angle. Its braces are marks. -/
structure Settled (depth : Nat) (ps : List Placed) : Prop where
  depth_eq : ps.foldl (fun d p => p.token.depthAfter d) depth = 0
  no_angle : ∀ p ∈ ps, p.token.isMarkOf ["<"] = false
  brace : ∀ p ∈ ps, p.token.is "\x7b" = true → p.token.opens = true

namespace Settled

variable {depth : Nat} {p : Placed} {ps : List Placed}

theorem nil_depth (h : Settled depth []) : depth = 0 := h.depth_eq

theorem tail (h : Settled depth (p :: ps)) : Settled (p.token.depthAfter depth) ps :=
  ⟨h.depth_eq, fun q hq => h.no_angle q (List.mem_cons_of_mem _ hq),
    fun q hq => h.brace q (List.mem_cons_of_mem _ hq)⟩

theorem opened (h : Settled depth (p :: ps)) (ho : p.token.opens = true) :
    Settled (depth + 1) ps := by
  have ht := h.tail
  rwa [Token.depthAfter, if_pos ho] at ht

theorem closed (h : Settled depth (p :: ps)) (ho : ¬ p.token.opens = true)
    (hc : p.token.closes = true) : Settled (depth - 1) ps := by
  have ht := h.tail
  rwa [Token.depthAfter, if_neg ho, if_pos hc] at ht

theorem other (h : Settled depth (p :: ps)) (ho : ¬ p.token.opens = true)
    (hc : ¬ p.token.closes = true) : Settled depth ps := by
  have ht := h.tail
  rwa [Token.depthAfter, if_neg ho, if_neg hc] at ht

theorem mark (h : Settled depth (p :: ps)) {text : String} (hp : p.token.is text = true)
    (ht : text ∉ ["(", "[", "\x7b", ")", "]", "\x7d"]) : Settled depth ps := by
  have htext : p.token.text = text := by
    simp only [Token.is, Bool.and_eq_true, beq_iff_eq] at hp
    exact hp.2
  simp only [List.mem_cons, List.not_mem_nil, or_false, not_or] at ht
  exact h.other (by simp [Token.opens, Token.isMarkOf, htext, ht])
    (by simp [Token.closes, Token.isMarkOf, htext, ht])

theorem skipBreaks (h : Settled depth ps) : Settled depth (skipBreaks ps) := by
  induction ps with
  | nil => exact h
  | cons p ps ih =>
      unfold Source.skipBreaks
      rw [List.dropWhile_cons]
      split
      · rename_i hb
        have hk : p.token.kind = .lineBreak := by simpa [Token.isBreak] using hb
        exact ih (h.other (by simp [Token.opens, Token.isMarkOf, hk])
          (by simp [Token.closes, Token.isMarkOf, hk]))
      · exact h

end Settled

/-! ## The semicolon -/

structure Placed.IsSemicolon (s : Placed) : Prop where
  kind : s.token.kind = .mark
  text : s.token.text = ";"

namespace Placed.IsSemicolon

variable {s : Placed} (hs : s.IsSemicolon)

include hs

theorem isMarkOf (texts : List String) : s.token.isMarkOf texts = texts.contains ";" := by
  simp [Token.isMarkOf, hs.kind, hs.text]

theorem opens : s.token.opens = false := hs.isMarkOf _

theorem closes : s.token.closes = false := hs.isMarkOf _

theorem isBreak : s.token.isBreak = false := by simp [Token.isBreak, hs.kind]

theorem is_eq_false {text : String} (h : text ≠ ";") : s.token.is text = false := by
  simp [Token.is, hs.text, h.symm]

theorem closedAngles : closedAngles s.token = 0 := by
  simp [Source.closedAngles, hs.isMarkOf]

end Placed.IsSemicolon

variable {α : Type}

/-- What a function takes from a row in front of a semicolon does not depend on what follows the
semicolon, which stays where it is. -/
def Keeps (f : List Placed → α × List Placed) (ps : List Placed) : Prop :=
  ∃ x qs, Settled 0 qs ∧ qs <:+ ps ∧
    ∀ s rest, s.IsSemicolon → f (ps ++ s :: rest) = (x, qs ++ s :: rest)

/-- The same for a function that only drops tokens. -/
def KeepsRow (f : List Placed → List Placed) (ps : List Placed) : Prop :=
  ∃ qs, Settled 0 qs ∧ qs <:+ ps ∧ ∀ s rest, s.IsSemicolon → f (ps ++ s :: rest) = qs ++ s :: rest

/-- The same for a function that may take nothing. -/
def Keeps? (f : List Placed → Option (α × List Placed)) (ps : List Placed) : Prop :=
  ∃ r : Option (α × List Placed), (∀ x, r = some x → Settled 0 x.2 ∧ x.2 <:+ ps) ∧
    ∀ s rest, s.IsSemicolon → f (ps ++ s :: rest) = r.map fun x => (x.1, x.2 ++ s :: rest)

variable {depth : Nat} {p : Placed} {ps : List Placed}

/-! ## Spans -/

theorem skipBreaks_semicolon (ps : List Placed) {s : Placed} (hs : s.IsSemicolon)
    (rest : List Placed) : skipBreaks (ps ++ s :: rest) = skipBreaks ps ++ s :: rest := by
  induction ps with
  | nil => simp [skipBreaks, hs.isBreak]
  | cons p ps ih =>
      unfold skipBreaks at ih ⊢
      rw [List.cons_append, List.dropWhile_cons, List.dropWhile_cons]
      split
      · exact ih
      · rfl

theorem nextIs_semicolon {text : String} (ht : text ≠ ";") (ps : List Placed) {s : Placed}
    (hs : s.IsSemicolon) (rest : List Placed) : nextIs (ps ++ s :: rest) text = nextIs ps text := by
  cases ps with
  | nil => exact hs.is_eq_false ht
  | cons p ps => rfl

/-- A first token that goes with the span behind it. -/
theorem Keeps.cons {f g : List Placed → List Token × List Placed} (h : Keeps f ps)
    (hg : ∀ qs, g (p :: qs) = (p.token :: (f qs).1, (f qs).2)) : Keeps g (p :: ps) := by
  obtain ⟨x, qs, hqs, hsuf, h⟩ := h
  refine ⟨p.token :: x, qs, hqs, hsuf.trans (List.suffix_cons _ _), ?_⟩
  intro s rest hs
  rw [List.cons_append, hg, h s rest hs]

/-- A span that ends in front of this row. -/
theorem Keeps.stop {f : List Placed → List Token × List Placed} (hps : Settled 0 ps)
    (hf : ∀ s rest, s.IsSemicolon → f (ps ++ s :: rest) = ([], ps ++ s :: rest)) : Keeps f ps :=
  ⟨[], ps, hps, List.suffix_rfl, hf⟩

theorem splitGroup_keeps (h : Settled (depth + 1) ps) : Keeps (splitGroup (depth + 1)) ps := by
  induction ps generalizing depth with
  | nil => exact absurd h.nil_depth (by omega)
  | cons p ps ih =>
      by_cases ho : p.token.opens = true
      · exact (ih (h.opened ho)).cons fun qs => by simp [splitGroup, ho]
      by_cases hc : p.token.closes = true
      · cases depth with
        | zero =>
            refine ⟨[p.token], ps, h.closed ho hc, List.suffix_cons _ _, ?_⟩
            intro s rest _
            simp [splitGroup, ho, hc]
        | succ d => exact (ih (h.closed ho hc)).cons fun qs => by simp [splitGroup, ho, hc]
      · exact (ih (h.other ho hc)).cons fun qs => by simp [splitGroup, ho, hc]

theorem splitExpression_keeps (h : Settled depth ps) : Keeps (splitExpression depth) ps := by
  induction ps generalizing depth with
  | nil =>
      obtain rfl := h.nil_depth
      refine .stop h fun s rest hs => ?_
      simp [splitExpression, hs.opens, hs.closes, hs.isMarkOf]
  | cons p ps ih =>
      by_cases ho : p.token.opens = true
      · exact (ih (h.opened ho)).cons fun qs => by simp [splitExpression, ho]
      by_cases hc : p.token.closes = true
      · cases depth with
        | zero => exact .stop h fun s rest _ => by simp [splitExpression, ho, hc]
        | succ d => exact (ih (h.closed ho hc)).cons fun qs => by simp [splitExpression, ho, hc]
      by_cases hm : depth = 0 ∧ p.token.isMarkOf [",", ";"] = true
      · obtain ⟨rfl, hm⟩ := hm
        exact .stop h fun s rest _ => by simp [splitExpression, ho, hc, hm]
      by_cases hb : depth = 0 ∧ p.token.isBreak = true ∧ (!p.continuesLine false) = true
      · obtain ⟨rfl, hb⟩ := hb
        refine .stop h fun s rest _ => ?_
        rw [List.cons_append, splitExpression]
        dsimp only
        rw [if_neg ho, if_neg hc, if_neg hm, if_pos ⟨rfl, hb⟩]
      · refine (ih (h.other ho hc)).cons fun qs => ?_
        rw [splitExpression]
        dsimp only
        rw [if_neg ho, if_neg hc, if_neg hm, if_neg hb]

theorem splitType_keeps (h : Settled depth ps) : Keeps (splitType depth 0) ps := by
  induction ps generalizing depth with
  | nil =>
      obtain rfl := h.nil_depth
      refine .stop h fun s rest hs => ?_
      simp [splitType, hs.opens, hs.closes, hs.isMarkOf, hs.closedAngles]
  | cons p ps ih =>
      have ha : ¬ p.token.isMarkOf ["<"] = true := by simp [h.no_angle p (by simp)]
      by_cases ho : p.token.opens = true
      · exact (ih (h.opened ho)).cons fun qs => by simp [splitType, ho]
      by_cases hc : p.token.closes = true
      · cases depth with
        | zero => exact .stop h fun s rest _ => by simp [splitType, ho, hc]
        | succ d => exact (ih (h.closed ho hc)).cons fun qs => by simp [splitType, ho, hc]
      by_cases hg : closedAngles p.token > 0
      · refine (ih (h.other ho hc)).cons fun qs => ?_
        rw [splitType]
        dsimp only
        rw [if_neg ho, if_neg hc, if_neg ha, if_pos hg, Nat.zero_sub]
      by_cases hm : depth = 0 ∧ (0 : Nat) = 0 ∧ p.token.isMarkOf ["=", ",", ";"] = true
      · obtain ⟨rfl, -, hm⟩ := hm
        refine .stop h fun s rest _ => ?_
        rw [List.cons_append, splitType]
        dsimp only
        rw [if_neg ho, if_neg hc, if_neg ha, if_neg hg, if_pos ⟨rfl, rfl, hm⟩]
      by_cases hb : depth = 0 ∧ (0 : Nat) = 0 ∧ p.token.isBreak = true ∧
          (!p.continuesLine true) = true
      · obtain ⟨rfl, -, hb⟩ := hb
        refine .stop h fun s rest _ => ?_
        rw [List.cons_append, splitType]
        dsimp only
        rw [if_neg ho, if_neg hc, if_neg ha, if_neg hg, if_neg hm, if_pos ⟨rfl, rfl, hb⟩]
      · refine (ih (h.other ho hc)).cons fun qs => ?_
        rw [splitType]
        dsimp only
        rw [if_neg ho, if_neg hc, if_neg ha, if_neg hg, if_neg hm, if_neg hb]

/-! ## Bindings -/

/-- A row, or its tail if it starts with this mark. -/
theorem keepsRow_of_nextIs {f : List Placed → List Placed} (text : String) (ht : text ≠ ";")
    (h : Settled 0 ps) (hf : ∀ qs, nextIs qs text = false → f qs = qs)
    (hmark : ∀ q qs, ps = q :: qs → q.token.is text = true → KeepsRow f ps) : KeepsRow f ps := by
  cases hn : nextIs ps text with
  | false =>
      refine ⟨ps, h, List.suffix_rfl, fun s rest hs => hf _ ?_⟩
      rw [nextIs_semicolon ht ps hs, hn]
  | true =>
      cases ps with
      | nil => cases hn
      | cons q qs => exact hmark q qs rfl hn

theorem dropMark_keeps (h : Settled 0 ps) : KeepsRow (dropMark "!") ps := by
  refine keepsRow_of_nextIs "!" (by decide) h (fun qs hq => by simp [dropMark, hq]) ?_
  rintro q qs rfl hq
  refine ⟨qs, h.mark hq (by decide), List.suffix_cons _ _, fun s rest _ => ?_⟩
  simp [dropMark, nextIs, hq]

theorem skipColonType_keeps (h : Settled 0 ps) : KeepsRow skipColonType ps := by
  refine keepsRow_of_nextIs ":" (by decide) h
    (fun qs hq => by simp [skipColonType, hq]) ?_
  rintro q qs rfl hq
  obtain ⟨_, rs, hrs, hsuf, hkeeps⟩ := splitType_keeps (h.mark hq (by decide))
  refine ⟨rs, hrs, hsuf.trans (List.suffix_cons _ _), fun s rest hs => ?_⟩
  simp [skipColonType, nextIs, hq, hkeeps s rest hs]

theorem skipDeclare_keeps (h : Settled 0 ps) : KeepsRow skipDeclare ps := by
  refine keepsRow_of_nextIs "declare" (by decide) h
    (fun qs hq => by simp [skipDeclare, hq]) ?_
  rintro q qs rfl hq
  refine ⟨skipBreaks qs, (h.mark hq (by decide)).skipBreaks,
    (skipBreaks_suffix _).trans (List.suffix_cons _ _), fun s rest hs => ?_⟩
  simp [skipDeclare, nextIs, hq, skipBreaks_semicolon qs hs]

theorem initializer_keeps (h : Settled 0 ps) : Keeps initializer ps := by
  cases hn : nextIs ps "=" with
  | false =>
      refine ⟨none, ps, h, List.suffix_rfl, fun s rest hs => ?_⟩
      simp [initializer, nextIs_semicolon (by decide : "=" ≠ ";") ps hs, hn]
  | true =>
      cases ps with
      | nil => cases hn
      | cons q qs =>
          obtain ⟨ts, rs, hrs, hsuf, hkeeps⟩ := splitExpression_keeps (h.mark hn (by decide))
          refine ⟨extentOf ts, rs, hrs, hsuf.trans (List.suffix_cons _ _), fun s rest hs => ?_⟩
          have hq : q.token.is "=" = true := hn
          simp [initializer, nextIs, hq, hkeeps s rest hs]

theorem target?_keeps (h : Settled 0 (p :: ps)) : Keeps? (target? p) ps := by
  by_cases hm : p.token.isMarkOf ["\x7b", "["] = true
  · have ho : p.token.opens = true := by
      simp only [Token.opens, Token.isMarkOf, List.contains_eq_mem, Bool.and_eq_true] at hm ⊢
      simp only [List.mem_cons, List.not_mem_nil, or_false, decide_eq_true_eq] at hm ⊢
      exact ⟨hm.1, hm.2.elim (fun h => .inr (.inr h)) (fun h => .inr (.inl h))⟩
    obtain ⟨_, qs, hqs, hsuf, hkeeps⟩ := splitGroup_keeps (h.opened ho)
    refine ⟨some (none, qs), by rintro _ ⟨⟩; exact ⟨hqs, hsuf⟩, fun s rest hs => ?_⟩
    simp [target?, hm, hkeeps s rest hs]
  by_cases hw : p.token.kind = .word
  · refine ⟨some (some p.token.text, ps), ?_, fun s rest _ => by simp [target?, hm, hw]⟩
    rintro _ ⟨⟩
    exact ⟨h.other (by simp [Token.opens_of_word hw]) (by simp [Token.closes_of_word hw]),
      List.suffix_rfl⟩
  · exact ⟨none, by simp, fun s rest _ => by simp [target?, hm, hw]⟩

theorem binding?_keeps (h : Settled 0 (p :: ps)) : Keeps? (binding? p) ps := by
  obtain ⟨r, hr, hkeeps⟩ := target?_keeps h
  cases r with
  | none => exact ⟨none, by simp, fun s rest hs => by simp [binding?, hkeeps s rest hs]⟩
  | some t =>
      obtain ⟨ht, hsuf⟩ := hr t rfl
      obtain ⟨q₁, h₁, hsuf₁, hk₁⟩ := dropMark_keeps ht
      obtain ⟨q₂, h₂, hsuf₂, hk₂⟩ := skipColonType_keeps h₁
      obtain ⟨e, q₃, h₃, hsuf₃, hk₃⟩ := initializer_keeps h₂
      refine ⟨some (t.1.map fun name => ⟨name, p.token.line, e⟩, q₃), ?_, fun s rest hs => ?_⟩
      · rintro _ ⟨⟩
        exact ⟨h₃, hsuf₃.trans (hsuf₂.trans (hsuf₁.trans hsuf))⟩
      · simp [binding?, hkeeps s rest hs, hk₁ s rest hs, hk₂ s rest hs, hk₃ s rest hs]

theorem binding?_semicolon {s : Placed} (hs : s.IsSemicolon) (ps : List Placed) :
    binding? s ps = none := by
  simp [binding?, target?, hs.isMarkOf, hs.kind]

theorem bindings_keeps {ps : List Placed} (h : Settled 0 ps) : Keeps bindings ps := by
  have hskip := h.skipBreaks
  have hsuf := skipBreaks_suffix ps
  cases hq : skipBreaks ps with
  | nil =>
      refine ⟨[], [], ⟨rfl, by simp, by simp⟩, List.nil_suffix, fun s rest hs => ?_⟩
      rw [bindings_eq, skipBreaks_semicolon ps hs, hq]
      simp [binding?_semicolon hs]
  | cons p qs =>
      rw [hq] at hskip hsuf
      obtain ⟨r, hr, hkeeps⟩ := binding?_keeps hskip
      cases r with
      | none =>
          refine ⟨[], p :: qs, hskip, hsuf, fun s rest hs => ?_⟩
          rw [bindings_eq, skipBreaks_semicolon ps hs, hq]
          simp [hkeeps s rest hs]
      | some b =>
          obtain ⟨hb, hbsuf⟩ := hr b rfl
          cases hn : nextIs b.2 "," with
          | false =>
              refine ⟨b.1.toList, b.2, hb, hbsuf.trans ((List.suffix_cons _ _).trans hsuf),
                fun s rest hs => ?_⟩
              rw [bindings_eq, skipBreaks_semicolon ps hs, hq]
              simp [hkeeps s rest hs, nextIs_semicolon (by decide : "," ≠ ";") b.2 hs, hn]
          | true =>
              obtain ⟨b, _ | ⟨c, cs⟩⟩ := b
              · cases hn
              have hlt : cs.length < ps.length := by
                have h₁ := hbsuf.length_le
                have h₂ := hsuf.length_le
                simp only [List.length_cons] at h₁ h₂
                omega
              obtain ⟨x, rs, hrs, hrsuf, hmore⟩ := bindings_keeps (hb.mark hn (by decide))
              refine ⟨b.toList ++ x, rs, hrs, hrsuf.trans ((List.suffix_cons _ _).trans
                (hbsuf.trans ((List.suffix_cons _ _).trans hsuf))), fun s rest hs => ?_⟩
              have hc : c.token.is "," = true := hn
              rw [bindings_eq, skipBreaks_semicolon ps hs, hq]
              simp [hkeeps s rest hs, nextIs, hc, hmore s rest hs]
termination_by ps.length
decreasing_by exact hlt

/-! ## Statements -/

theorem exportClause_keeps (h : Settled 1 ps) : Keeps exportClause ps := by
  obtain ⟨ts, qs, hqs, hsuf, hkeeps⟩ := splitGroup_keeps (show Settled (0 + 1) ps from h)
  have hskip := hqs.skipBreaks
  have hclause : ∀ s rest, s.IsSemicolon → exportClause (ps ++ s :: rest) =
      if nextIs (skipBreaks qs) "from" then (.passedOn, (skipBreaks qs ++ s :: rest).tail)
      else (.clause ((clauseWords ts.dropLast).filterMap clauseEntry), qs ++ s :: rest) := by
    intro s rest hs
    have hgroup : splitGroup 1 (ps ++ s :: rest) = (ts, qs ++ s :: rest) := hkeeps s rest hs
    simp only [exportClause, hgroup, skipBreaks_semicolon qs hs,
      nextIs_semicolon (by decide : "from" ≠ ";") (skipBreaks qs) hs]
  cases hn : nextIs (skipBreaks qs) "from" with
  | false =>
      refine ⟨.clause ((clauseWords ts.dropLast).filterMap clauseEntry), qs, hqs, hsuf,
        fun s rest hs => ?_⟩
      rw [hclause s rest hs, hn, if_neg (by decide)]
  | true =>
      cases hq : skipBreaks qs with
      | nil => simp [hq, nextIs] at hn
      | cons q rs =>
          rw [hq] at hn hskip
          refine ⟨.passedOn, rs, hskip.mark hn (by decide), ?_, fun s rest hs => ?_⟩
          · exact (List.suffix_cons q rs).trans (hq ▸ (skipBreaks_suffix qs).trans hsuf)
          · rw [hclause s rest hs, hq, hn, if_pos rfl]
            rfl

theorem bindingStatement?_keeps (h : Settled 0 ps) (exported : Bool) :
    Keeps? (bindingStatement? exported) ps := by
  cases ps with
  | nil =>
      refine ⟨none, by simp, fun s rest hs => ?_⟩
      simp [bindingStatement?, Token.isWordOf, hs.kind]
  | cons p qs =>
      have hbody : ∀ s rest, s.IsSemicolon → skipBreaks (qs ++ s :: rest) = skipBreaks qs ++ s :: rest :=
        fun s rest hs => skipBreaks_semicolon qs hs rest
      have henum : ∀ s rest, s.IsSemicolon →
          nextIs (skipBreaks qs ++ s :: rest) "enum" = nextIs (skipBreaks qs) "enum" :=
        fun s rest hs => nextIs_semicolon (by decide) _ hs rest
      by_cases hk : p.token.isWordOf bindingKeywords = true ∧ ¬ nextIs (skipBreaks qs) "enum" = true
      · have hw := Token.kind_of_isWordOf hk.1
        have hqs := h.other (by simp [Token.opens_of_word hw]) (by simp [Token.closes_of_word hw])
        obtain ⟨x, rs, hrs, hsuf, hkeeps⟩ := bindings_keeps hqs.skipBreaks
        refine ⟨some (.bindings exported p.token.text x, rs), ?_, fun s rest hs => ?_⟩
        · rintro _ ⟨⟩
          exact ⟨hrs, hsuf.trans ((skipBreaks_suffix qs).trans (List.suffix_cons _ _))⟩
        · simp only [List.cons_append, bindingStatement?, hbody s rest hs, henum s rest hs,
            hkeeps s rest hs, if_pos hk]
          rfl
      · refine ⟨none, by simp, fun s rest hs => ?_⟩
        simp only [List.cons_append, bindingStatement?, hbody s rest hs, henum s rest hs, if_neg hk]
        rfl

theorem Keeps?.of_suffix {f g : List Placed → Option (α × List Placed)} {qs : List Placed}
    (h : Keeps? f qs) (hsuf : qs <:+ ps)
    (hg : ∀ s rest, s.IsSemicolon → g (ps ++ s :: rest) = f (qs ++ s :: rest)) : Keeps? g ps := by
  obtain ⟨r, hr, hkeeps⟩ := h
  refine ⟨r, fun x hx => ⟨(hr x hx).1, (hr x hx).2.trans hsuf⟩, fun s rest hs => ?_⟩
  rw [hg s rest hs, hkeeps s rest hs]

/-- The statement that starts behind `export`, if it is one that matters. -/
def exportStatement? (ps : List Placed) : Option (Statement × List Placed) :=
  if nextIs ps "\x7b" then some (exportClause ps.tail)
  else if nextIs ps "default" then none
  else bindingStatement? true (skipDeclare ps)

theorem statement?_eq (ps : List Placed) :
    statement? ps = if nextIs ps "export" then exportStatement? (skipBreaks ps.tail)
      else bindingStatement? false (skipDeclare ps) := rfl

theorem exportStatement?_keeps (h : Settled 0 ps) : Keeps? exportStatement? ps := by
  have hbrace : ∀ s rest, s.IsSemicolon → nextIs (ps ++ s :: rest) "\x7b" = nextIs ps "\x7b" :=
    fun s rest hs => nextIs_semicolon (by decide) ps hs rest
  have hdefault : ∀ s rest, s.IsSemicolon → nextIs (ps ++ s :: rest) "default" = nextIs ps "default" :=
    fun s rest hs => nextIs_semicolon (by decide) ps hs rest
  cases hb : nextIs ps "\x7b" with
  | true =>
      obtain _ | ⟨b, bs⟩ := ps
      · cases hb
      obtain ⟨x, qs, hqs, hsuf, hkeeps⟩ := exportClause_keeps (h.opened (h.brace b (by simp) hb))
      refine ⟨some (x, qs), ?_, fun s rest hs => ?_⟩
      · rintro _ ⟨⟩
        exact ⟨hqs, hsuf.trans (List.suffix_cons _ _)⟩
      · rw [exportStatement?, hbrace s rest hs, hb, if_pos rfl, List.cons_append, List.tail_cons,
          hkeeps s rest hs]
        rfl
  | false =>
      cases hd : nextIs ps "default" with
      | true =>
          refine ⟨none, by simp, fun s rest hs => ?_⟩
          simp [exportStatement?, hbrace s rest hs, hb, hdefault s rest hs, hd]
      | false =>
          obtain ⟨qs, hqs, hsuf, hkeeps⟩ := skipDeclare_keeps h
          refine (bindingStatement?_keeps hqs true).of_suffix hsuf fun s rest hs => ?_
          simp [exportStatement?, hbrace s rest hs, hb, hdefault s rest hs, hd, hkeeps s rest hs]

theorem statement?_keeps (h : Settled 0 ps) : Keeps? statement? ps := by
  have hsemi : ∀ s rest, s.IsSemicolon → nextIs (ps ++ s :: rest) "export" = nextIs ps "export" :=
    fun s rest hs => nextIs_semicolon (by decide) ps hs rest
  cases hx : nextIs ps "export" with
  | false =>
      obtain ⟨qs, hqs, hsuf, hkeeps⟩ := skipDeclare_keeps h
      refine (bindingStatement?_keeps hqs false).of_suffix hsuf fun s rest hs => ?_
      simp [statement?_eq, hsemi s rest hs, hx, hkeeps s rest hs]
  | true =>
      obtain _ | ⟨x, xs⟩ := ps
      · cases hx
      refine (exportStatement?_keeps (h.mark hx (by decide)).skipBreaks).of_suffix
        ((skipBreaks_suffix xs).trans (List.suffix_cons _ _)) fun s rest hs => ?_
      rw [statement?_eq, hsemi s rest hs, hx, if_pos rfl, List.cons_append, List.tail_cons,
        skipBreaks_semicolon xs hs]

/-- Statements in front of a semicolon do not depend on what follows it, and reading goes on behind
it as from a start. -/
theorem statements_semicolon {depth : Nat} {ps : List Placed} (h : Settled depth ps) :
    ∃ ss, ∀ s rest, s.IsSemicolon → statements depth (ps ++ s :: rest) = ss ++ statements 0 rest := by
  match ps with
  | [] =>
      obtain rfl := h.nil_depth
      refine ⟨[], fun s rest hs => ?_⟩
      simp [statements_cons, hs.opens, hs.closes, hs.kind]
  | p :: qs =>
      by_cases ho : p.token.opens = true
      · obtain ⟨ss, hss⟩ := statements_semicolon (h.opened ho)
        exact ⟨ss, fun s rest hs => by simp [statements_cons, ho, hss s rest hs]⟩
      by_cases hc : p.token.closes = true
      · obtain ⟨ss, hss⟩ := statements_semicolon (h.closed ho hc)
        exact ⟨ss, fun s rest hs => by simp [statements_cons, ho, hc, hss s rest hs]⟩
      have hqs := h.other ho hc
      by_cases hw : depth = 0 ∧ p.token.kind = .word ∧ p.startsStatement = true
      · obtain rfl := hw.1
        obtain ⟨r, hr, hkeeps⟩ := statement?_keeps h
        cases r with
        | none =>
            obtain ⟨ss, hss⟩ := statements_semicolon hqs
            refine ⟨ss, fun s rest hs => ?_⟩
            rw [List.cons_append, statements_cons, if_neg ho, if_neg hc, if_pos hw,
              ← List.cons_append, hkeeps s rest hs]
            exact hss s rest hs
        | some x =>
            obtain ⟨hx, _⟩ := hr x rfl
            have hlt : x.2.length < (p :: qs).length := by
              have hs : Placed.IsSemicolon ⟨none, ⟨.mark, ";", 0, 0, 0⟩, none⟩ := ⟨rfl, rfl⟩
              have := statement?_length (hkeeps _ [] hs)
              simpa using this
            obtain ⟨ss, hss⟩ := statements_semicolon hx
            refine ⟨x.1 :: ss, fun s rest hs => ?_⟩
            rw [List.cons_append, statements_cons, if_neg ho, if_neg hc, if_pos hw,
              ← List.cons_append, hkeeps s rest hs]
            simp [hss s rest hs]
      · obtain ⟨ss, hss⟩ := statements_semicolon hqs
        refine ⟨ss, fun s rest hs => ?_⟩
        rw [List.cons_append, statements_cons, if_neg ho, if_neg hc, if_neg hw, hss s rest hs]
termination_by ps.length
decreasing_by
  all_goals first
    | exact hlt
    | exact Nat.lt_succ_self _

end TableRoster.Source
