import TableRoster.Proofs.Source.Binding

/-! # Statements move along with their tokens

Where a token stands is never looked at, only handed on. So statements read from tokens that stand
elsewhere are the same statements, elsewhere. -/

namespace TableRoster.Source

/-- A change of the places that tokens stand at. -/
structure Relocation where
  start : Nat → Nat
  stop : Nat → Nat
  line : Nat → Nat

variable (g : Relocation)

/-- The same token at another place. -/
def Token.relocate (t : Token) : Token :=
  { t with start := g.start t.start, stop := g.stop t.stop, line := g.line t.line }

def Relocation.extent (e : Nat × Nat) : Nat × Nat :=
  (g.start e.1, g.stop e.2)

def Binding.relocate (b : Binding) : Binding :=
  { b with line := g.line b.line, extent := b.extent.map g.extent }

def Statement.relocate : Statement → Statement
  | .bindings exported keyword bound => .bindings exported keyword (bound.map (Binding.relocate g))
  | .clause entries => .clause entries
  | .passedOn => .passedOn

/-- A change of tokens and their neighbours that relocates the tokens, and under which a line ends
and a statement starts where they did. -/
structure Relocation.Places (f : Placed → Placed) : Prop where
  token : ∀ p, (f p).token = p.token.relocate g
  continuesLine : ∀ p inType, (f p).continuesLine inType = p.continuesLine inType
  startsStatement : ∀ p, (f p).startsStatement = p.startsStatement

namespace Relocation.Places

variable {g : Relocation} {f : Placed → Placed} (hf : g.Places f)

include hf

/-! ## Looking at a token -/

theorem isMarkOf (p : Placed) (texts : List String) :
    (f p).token.isMarkOf texts = p.token.isMarkOf texts := by rw [hf.token]; rfl

theorem isWordOf (p : Placed) (texts : List String) :
    (f p).token.isWordOf texts = p.token.isWordOf texts := by rw [hf.token]; rfl

theorem opens (p : Placed) : (f p).token.opens = p.token.opens := hf.isMarkOf p _

theorem closes (p : Placed) : (f p).token.closes = p.token.closes := hf.isMarkOf p _

theorem isBreak (p : Placed) : (f p).token.isBreak = p.token.isBreak := by rw [hf.token]; rfl

theorem kind (p : Placed) : (f p).token.kind = p.token.kind := by rw [hf.token]; rfl

theorem text (p : Placed) : (f p).token.text = p.token.text := by rw [hf.token]; rfl

theorem closedAngles (p : Placed) : closedAngles (f p).token = Source.closedAngles p.token := by
  rw [hf.token]; rfl

theorem nextIs (ps : List Placed) (text : String) : nextIs (ps.map f) text = Source.nextIs ps text := by
  cases ps with
  | nil => rfl
  | cons p ps => simp [Source.nextIs, Token.is, hf.kind, hf.text]

theorem skipBreaks (ps : List Placed) : skipBreaks (ps.map f) = (Source.skipBreaks ps).map f := by
  simp only [Source.skipBreaks, List.dropWhile_map]
  congr 2
  funext p
  exact hf.isBreak p

/-! ## Spans -/

theorem splitGroup (depth : Nat) (ps : List Placed) :
    splitGroup depth (ps.map f)
      = ((Source.splitGroup depth ps).1.map (Token.relocate g), (Source.splitGroup depth ps).2.map f) := by
  induction ps generalizing depth with
  | nil => rfl
  | cons p ps ih =>
      simp only [List.map_cons, Source.splitGroup, hf.opens, hf.closes, ih]
      repeat' split
      all_goals simp [hf.token]

theorem splitType (depth angles : Nat) (ps : List Placed) :
    splitType depth angles (ps.map f)
      = ((Source.splitType depth angles ps).1.map (Token.relocate g),
          (Source.splitType depth angles ps).2.map f) := by
  induction ps generalizing depth angles with
  | nil => rfl
  | cons p ps ih =>
      simp only [List.map_cons, Source.splitType, hf.opens, hf.closes, hf.isMarkOf, hf.closedAngles,
        hf.isBreak, hf.continuesLine, ih]
      repeat' split
      all_goals simp [hf.token]

theorem splitExpression (depth : Nat) (ps : List Placed) :
    splitExpression depth (ps.map f)
      = ((Source.splitExpression depth ps).1.map (Token.relocate g),
          (Source.splitExpression depth ps).2.map f) := by
  induction ps generalizing depth with
  | nil => rfl
  | cons p ps ih =>
      simp only [List.map_cons, Source.splitExpression, hf.opens, hf.closes, hf.isMarkOf,
        hf.isBreak, hf.continuesLine, ih]
      repeat' split
      all_goals simp [hf.token]

omit hf in
theorem extentOf (ts : List Token) :
    extentOf (ts.map (Token.relocate g)) = (Source.extentOf ts).map g.extent := by
  have hfilter : (ts.map (Token.relocate g)).filter (!·.isBreak)
      = (ts.filter (!·.isBreak)).map (Token.relocate g) := by
    rw [List.filter_map]
    rfl
  simp only [Source.extentOf, hfilter, List.head?_map, List.getLast?_map]
  generalize ts.filter (!·.isBreak) = us
  cases us.head? <;> cases us.getLast? <;> rfl

/-! ## Bindings -/

theorem dropMark (text : String) (ps : List Placed) :
    dropMark text (ps.map f) = (Source.dropMark text ps).map f := by
  simp only [Source.dropMark, hf.nextIs]
  split <;> simp

theorem skipColonType (ps : List Placed) :
    skipColonType (ps.map f) = (Source.skipColonType ps).map f := by
  simp only [Source.skipColonType, hf.nextIs, ← List.map_tail, hf.splitType]
  split <;> rfl

theorem initializer (ps : List Placed) :
    initializer (ps.map f)
      = ((Source.initializer ps).1.map g.extent, (Source.initializer ps).2.map f) := by
  simp only [Source.initializer, hf.nextIs, ← List.map_tail, hf.splitExpression, extentOf]
  split <;> rfl

theorem target? (p : Placed) (ps : List Placed) :
    target? (f p) (ps.map f) = (Source.target? p ps).map fun t => (t.1, t.2.map f) := by
  simp only [Source.target?, hf.isMarkOf, hf.kind, hf.text, hf.splitGroup]
  repeat' split
  all_goals rfl

theorem binding? (p : Placed) (ps : List Placed) :
    binding? (f p) (ps.map f)
      = (Source.binding? p ps).map fun b => (b.1.map (Binding.relocate g), b.2.map f) := by
  simp only [Source.binding?, hf.target?, Option.map_map]
  congr 1
  funext t
  simp only [Function.comp_apply, hf.dropMark, hf.skipColonType, hf.initializer, hf.token]
  cases t.1 <;> rfl

theorem bindings (ps : List Placed) :
    bindings (ps.map f)
      = ((Source.bindings ps).1.map (Binding.relocate g), (Source.bindings ps).2.map f) := by
  fun_induction Source.bindings ps with
  | case1 ps h => simp [bindings_eq, hf.skipBreaks, h]
  | case2 ps p qs h hb => simp [bindings_eq, hf.skipBreaks, h, hf.binding?, hb]
  | case3 ps p qs h b rest hb hc more ih =>
      rw [bindings_eq, hf.skipBreaks, h]
      simp only [List.map_cons, hf.binding?, hb, Option.map_some, hf.nextIs, hc, if_true,
        ← List.map_tail, ih]
      cases b <;> simp [more]
  | case4 ps p qs h b rest hb hc =>
      rw [bindings_eq, hf.skipBreaks, h]
      simp only [List.map_cons, hf.binding?, hb, Option.map_some, hf.nextIs, hc]
      cases b <;> simp

/-! ## Statements -/

omit hf in
theorem clauseWords (ts : List Token) :
    clauseWords (ts.map (Token.relocate g)) = Source.clauseWords ts := by
  induction ts with
  | nil => rfl
  | cons t ts ih =>
      simp only [List.map_cons, Source.clauseWords, ih]
      rfl

theorem exportClause (ps : List Placed) :
    exportClause (ps.map f)
      = ((Source.exportClause ps).1.relocate g, (Source.exportClause ps).2.map f) := by
  simp only [Source.exportClause, hf.splitGroup, hf.skipBreaks, hf.nextIs, ← List.map_tail,
    ← List.map_dropLast, clauseWords]
  split <;> rfl

/-- A statement and what follows it, relocated. -/
abbrev rest? (g : Relocation) (f : Placed → Placed) (s : Option (Statement × List Placed)) :
    Option (Statement × List Placed) :=
  s.map fun s => (s.1.relocate g, s.2.map f)

theorem bindingStatement? (exported : Bool) (ps : List Placed) :
    bindingStatement? exported (ps.map f) = rest? g f (Source.bindingStatement? exported ps) := by
  cases ps with
  | nil => rfl
  | cons p ps =>
      simp only [List.map_cons, Source.bindingStatement?, hf.isWordOf, hf.skipBreaks, hf.nextIs,
        hf.bindings, hf.text]
      split <;> rfl

theorem skipDeclare (ps : List Placed) :
    skipDeclare (ps.map f) = (Source.skipDeclare ps).map f := by
  simp only [Source.skipDeclare, hf.nextIs, ← List.map_tail, hf.skipBreaks]
  split <;> rfl

theorem statement? (ps : List Placed) :
    statement? (ps.map f) = rest? g f (Source.statement? ps) := by
  simp only [Source.statement?, hf.nextIs, ← List.map_tail, hf.skipBreaks, hf.exportClause,
    hf.skipDeclare, hf.bindingStatement?]
  repeat' split
  all_goals rfl

/-- Statements move along with their tokens. -/
theorem statements (depth : Nat) (ps : List Placed) :
    statements depth (ps.map f) = (Source.statements depth ps).map (Statement.relocate g) := by
  fun_induction Source.statements depth ps with
  | case1 => simp [Source.statements]
  | case2 depth p qs h ih => simp [statements_cons, hf.opens, h, ih]
  | case3 depth p qs ho hc ih => simp [statements_cons, hf.opens, hf.closes, ho, hc, ih]
  | case4 depth p qs ho hc hw s rest hs ih =>
      have hs' := hf.statement? (p :: qs)
      rw [hs, List.map_cons] at hs'
      rw [List.map_cons, statements_cons, hf.opens, hf.closes, hf.kind, hf.startsStatement,
        if_neg ho, if_neg hc, if_pos hw, hs', List.map_cons, ← ih]
      rfl
  | case5 depth p qs ho hc hw hs ih =>
      have hs' := hf.statement? (p :: qs)
      rw [hs, List.map_cons] at hs'
      rw [List.map_cons, statements_cons, hf.opens, hf.closes, hf.kind, hf.startsStatement,
        if_neg ho, if_neg hc, if_pos hw, hs', ← ih]
      rfl
  | case6 depth p qs ho hc hw ih =>
      rw [List.map_cons, statements_cons, hf.opens, hf.closes, hf.kind, hf.startsStatement,
        if_neg ho, if_neg hc, if_neg hw, ih]

end Relocation.Places

/-! ## Rows of tokens -/

/-- A placed token elsewhere, with the line break `z` in front where there was nothing. -/
def Relocation.behind (g : Relocation) (z : Token) (p : Placed) : Placed :=
  ⟨some ((p.before.map (Token.relocate g)).getD z), p.token.relocate g,
    p.after.map (Token.relocate g)⟩

theorem Relocation.places_behind (g : Relocation) {z : Token} (hz : z.isBreak = true) :
    g.Places (g.behind z) := by
  have hk : z.kind = .lineBreak := by simpa [Token.isBreak] using hz
  refine ⟨fun _ => rfl, ?_, ?_⟩
  · rintro ⟨before, token, after⟩ inType
    have hasks : (g.behind z ⟨before, token, after⟩).asksForMore inType
        = Placed.asksForMore inType ⟨before, token, after⟩ := by
      cases before with
      | none => simp [behind, Placed.asksForMore, Token.isMarkOf, Token.isWordOf, hk]
      | some t => rfl
    have hgoes : (g.behind z ⟨before, token, after⟩).goesOn = Placed.goesOn ⟨before, token, after⟩ := by
      cases after <;> rfl
    rw [Placed.continuesLine, Placed.continuesLine, hasks, hgoes]
    cases after <;> rfl
  · rintro ⟨_ | t, token, after⟩
    · simp [behind, Placed.startsStatement, hz]
    · rfl

theorem Relocation.place_some (g : Relocation) (z t : Token) (ts : List Token) :
    place (some (t.relocate g)) (ts.map (Token.relocate g)) = (place (some t) ts).map (g.behind z) := by
  induction ts generalizing t with
  | nil => rfl
  | cons u ts ih =>
      rw [List.map_cons, place, ih u, place, List.map_cons]
      simp [behind]

theorem Relocation.place_behind (g : Relocation) (z : Token) (ts : List Token) :
    place (some z) (ts.map (Token.relocate g)) = (place none ts).map (g.behind z) := by
  cases ts with
  | nil => rfl
  | cons t ts =>
      rw [List.map_cons, place, g.place_some z t ts, place, List.map_cons]
      simp [behind]

/-- Statements behind a line break are those at a start. -/
theorem statements_behind_break (g : Relocation) {z : Token} (hz : z.isBreak = true) (depth : Nat)
    (ts : List Token) : statements depth (place (some z) (ts.map (Token.relocate g)))
      = (statements depth (place none ts)).map (Statement.relocate g) := by
  rw [g.place_behind, (g.places_behind hz).statements]

theorem Statement.relocate_id (s : Statement) : s.relocate ⟨id, id, id⟩ = s := by
  have hb : ∀ b : Binding, b.relocate ⟨id, id, id⟩ = b := by
    rintro ⟨name, line, _ | e⟩ <;> rfl
  cases s with
  | clause | passedOn => rfl
  | bindings exported keyword bound =>
      exact congrArg _ ((List.map_congr_left fun b _ => hb b).trans (List.map_id bound))

/-- A line break in front of a row is like nothing in front of it. -/
theorem statements_place_break {z : Token} (hz : z.isBreak = true) (depth : Nat) (ts : List Token) :
    statements depth (place (some z) ts) = statements depth (place none ts) := by
  have hts : ts.map (Token.relocate ⟨id, id, id⟩) = ts := List.map_id ts
  have h := statements_behind_break ⟨id, id, id⟩ hz depth ts
  rw [hts] at h
  exact h.trans ((List.map_congr_left fun s _ => s.relocate_id).trans (List.map_id _))

/-- Statements of relocated tokens are relocated. -/
theorem statements_relocate (g : Relocation) (depth : Nat) (ts : List Token) :
    statements depth (place none (ts.map (Token.relocate g)))
      = (statements depth (place none ts)).map (Statement.relocate g) := by
  have hz : Token.isBreak ⟨.lineBreak, "\n", 0, 1, 1⟩ = true := rfl
  rw [← statements_place_break hz, statements_behind_break g hz]

/-- The initializers of a statement end at this offset at the latest. -/
def Statement.Within (n : Nat) : Statement → Prop
  | .bindings _ _ bound => ∀ b ∈ bound, ∀ e, b.extent = some e → e.2 ≤ n
  | _ => True

/-- No initializer reaches behind the tokens it is read from. -/
theorem statements_within {n : Nat} {ts : List Token} (h : ∀ t ∈ ts, t.stop ≤ n) (depth : Nat)
    (before : Option Token) : ∀ s ∈ statements depth (place before ts), s.Within n := by
  -- to cut off the ends of tokens at the bound changes no token, and so no statement
  let g : Relocation := ⟨id, (min · n), id⟩
  let cut (p : Placed) : Placed := { p with token := p.token.relocate g }
  have hcut : g.Places cut := ⟨fun _ => rfl, fun _ _ => rfl, fun _ => rfl⟩
  have hrow : (place before ts).map cut = place before ts := by
    rw [List.map_congr_left (g := id), List.map_id]
    intro p hp
    have ht : p.token ∈ ts := map_token_place before ts ▸ List.mem_map_of_mem hp
    have hstop : min p.token.stop n = p.token.stop := Nat.min_eq_left (h _ ht)
    simp [cut, g, Token.relocate, hstop]
  intro s hs
  rw [← hrow, hcut.statements, List.mem_map] at hs
  obtain ⟨s, -, rfl⟩ := hs
  cases s with
  | clause | passedOn => trivial
  | bindings exported keyword bound =>
      intro b hb e he
      obtain ⟨b, -, rfl⟩ := List.mem_map.1 hb
      obtain ⟨e, -, rfl⟩ := Option.map_eq_some_iff.1 he
      exact Nat.min_le_right _ _

end TableRoster.Source
