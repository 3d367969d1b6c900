import TableRoster.Source.Span

/-! # Top-level statements

Of a module only two kinds of statements matter, both at bracket depth 0: bindings
`[export] [declare] const|let|var …` and clauses `export { … }`. Every other token is passed over. -/

namespace TableRoster.Source

/-- One bound name, the line it stands on, and the first and end offset of its initializer. -/
structure Binding where
  name : String
  line : Nat
  extent : Option (Nat × Nat)
  deriving DecidableEq, Repr

inductive Statement
  | bindings (exported : Bool) (keyword : String) (bound : List Binding)
  /-- Pairs of a local name and the name it is exported under. -/
  | clause (entries : List (String × String))
  /-- A clause with a source module, which exports nothing of this one. -/
  | passedOn
  deriving DecidableEq, Repr

/-! ## Bindings -/

/-- The first and the end offset of some tokens, line breaks at the ends left out. -/
def extentOf (ts : List Token) : Option (Nat × Nat) :=
  let solid := ts.filter (!·.isBreak)
  match solid.head?, solid.getLast? with
  | some a, some b => some (a.start, b.stop)
  | _, _ => none

/-- What a binding binds, from its first token: a name, or a pattern without a name of its own. -/
def target? (p : Placed) (ps : List Placed) : Option (Option String × List Placed) :=
  if p.token.isMarkOf ["\x7b", "["] then some (none, (splitGroup 1 ps).2)
  else if p.token.kind = .word then some (some p.token.text, ps)
  else none

/-- A row without this mark at its front. -/
def dropMark (text : String) (ps : List Placed) : List Placed :=
  if nextIs ps text then ps.tail else ps

/-- A row without a type annotation at its front. -/
def skipColonType (ps : List Placed) : List Placed :=
  if nextIs ps ":" then (splitType 0 0 ps.tail).2 else ps

/-- The initializer at the front of a row, and what follows it. -/
def initializer (ps : List Placed) : Option (Nat × Nat) × List Placed :=
  if nextIs ps "=" then
    let s := splitExpression 0 ps.tail
    (extentOf s.1, s.2)
  else (none, ps)

/-- One binding from its first token: nothing if none starts here. -/
def binding? (p : Placed) (ps : List Placed) : Option (Option Binding × List Placed) :=
  (target? p ps).map fun t =>
    let i := initializer (skipColonType (dropMark "!" t.2))
    (t.1.map fun name => ⟨name, p.token.line, i.1⟩, i.2)

theorem binding?_suffix {p : Placed} {ps : List Placed} {b : Option Binding × List Placed}
    (h : binding? p ps = some b) : b.2 <:+ ps := by
  unfold binding? at h
  obtain ⟨t, ht, rfl⟩ := Option.map_eq_some_iff.1 h
  have h1 : t.2 <:+ ps := by
    unfold target? at ht
    split at ht
    · cases ht; exact splitGroup_suffix _ _
    · split at ht
      · cases ht; exact List.suffix_rfl
      · cases ht
  have h2 : dropMark "!" t.2 <:+ t.2 := by
    unfold dropMark; split
    · exact List.tail_suffix _
    · exact List.suffix_rfl
  have h3 : ∀ qs : List Placed, skipColonType qs <:+ qs := by
    intro qs; unfold skipColonType; split
    · exact (splitType_suffix _ _ _).trans (List.tail_suffix _)
    · exact List.suffix_rfl
  have h4 : ∀ qs : List Placed, (initializer qs).2 <:+ qs := by
    intro qs; unfold initializer; split
    · exact (splitExpression_suffix _ _).trans (List.tail_suffix _)
    · exact List.suffix_rfl
  exact (h4 _).trans ((h3 _).trans (h2.trans h1))

/-- The bindings of a statement, separated by commas, and what follows them. -/
def bindings (ps : List Placed) : List Binding × List Placed :=
  match _h : skipBreaks ps with
  | [] => ([], [])
  | p :: qs =>
    match _hb : binding? p qs with
    | none => ([], p :: qs)
    | some (b, rest) =>
      if nextIs rest "," then
        let more := bindings rest.tail
        (b.toList ++ more.1, more.2)
      else (b.toList, rest)
termination_by ps.length
decreasing_by
  have h1 := (skipBreaks_suffix ps).length_le
  have h2 := (binding?_suffix _hb).length_le
  rw [_h] at h1
  simp only [List.length_cons, List.length_tail] at *
  omega

theorem bindings_suffix (ps : List Placed) : (bindings ps).2 <:+ ps := by
  fun_induction bindings ps with
  | case1 => exact List.nil_suffix
  | case2 ps p qs h hb => exact h ▸ skipBreaks_suffix ps
  | case3 ps p qs h b rest hb hc more ih =>
    exact ih.trans ((List.tail_suffix _).trans ((binding?_suffix hb).trans
      ((List.suffix_cons _ _).trans (h ▸ skipBreaks_suffix ps))))
  | case4 ps p qs h b rest hb hc =>
    exact (binding?_suffix hb).trans ((List.suffix_cons _ _).trans (h ▸ skipBreaks_suffix ps))

/-! ## Export clauses -/

/-- The entry that some words of a clause make: `x`, or `x as y`, with the quotes of `y` taken
off. What starts with `type` exports no value. -/
def clauseEntry (words : List String) : Option (String × String) :=
  match words with
  | [x] => some (x, x)
  | [x, "as", y] =>
    if x = "type" then none
    else some (x, String.ofList (unquote y.toList))
  | _ => none
where
  /-- A text without quotes at its ends. -/
  unquote (s : List Char) : List Char :=
    let q (c : Char) := c == '\x27' || c == '\x22'
    ((s.dropWhile q).reverse.dropWhile q).reverse

/-- The words of each entry of a clause: words and strings, entries separated by commas. -/
def clauseWords : List Token → List (List String)
  | [] => [[]]
  | t :: ts =>
    match clauseWords ts with
    | [] => [[]]
    | ws :: rest =>
      if t.isMarkOf [","] then [] :: ws :: rest
      else if t.kind = .word ∨ t.kind = .string then (t.text :: ws) :: rest
      else ws :: rest

/-- An export clause from behind its opening brace. The last token of the group is its closing
brace, or is lost if the module ends before. -/
def exportClause (ps : List Placed) : Statement × List Placed :=
  let group := splitGroup 1 ps
  let rest := skipBreaks group.2
  if nextIs rest "from" then (.passedOn, rest.tail)
  else (.clause ((clauseWords group.1.dropLast).filterMap clauseEntry), group.2)

theorem exportClause_suffix (ps : List Placed) : (exportClause ps).2 <:+ ps := by
  unfold exportClause
  dsimp only
  split
  · exact (List.tail_suffix _).trans ((skipBreaks_suffix _).trans (splitGroup_suffix _ _))
  · exact splitGroup_suffix _ _

/-! ## Statements -/

def bindingKeywords : List String :=
  ["const", "let", "var"]

/-- Bindings from their keyword on; a `const enum` binds nothing. -/
def bindingStatement? (exported : Bool) (ps : List Placed) : Option (Statement × List Placed) :=
  match ps with
  | [] => none
  | p :: qs =>
    let body := skipBreaks qs
    if p.token.isWordOf bindingKeywords ∧ ¬ nextIs body "enum" then
      let b := bindings body
      some (.bindings exported p.token.text b.1, b.2)
    else none

/-- A row behind `declare`, if that stands first. -/
def skipDeclare (ps : List Placed) : List Placed :=
  if nextIs ps "declare" then skipBreaks ps.tail else ps

/-- The statement that starts at a row's first token, if it is one that matters. -/
def statement? (ps : List Placed) : Option (Statement × List Placed) :=
  if nextIs ps "export" then
    let rest := skipBreaks ps.tail
    if nextIs rest "\x7b" then some (exportClause rest.tail)
    else if nextIs rest "default" then none
    else bindingStatement? true (skipDeclare rest)
  else bindingStatement? false (skipDeclare ps)

theorem bindingStatement?_length {e : Bool} {ps : List Placed} {s : Statement × List Placed}
    (h : bindingStatement? e ps = some s) : s.2.length < ps.length := by
  unfold bindingStatement? at h
  split at h
  · cases h
  · rename_i p qs
    simp only at h
    split at h
    · cases h
      have h1 := (bindings_suffix (skipBreaks qs)).length_le
      have h2 := (skipBreaks_suffix qs).length_le
      simp only [List.length_cons]
      omega
    · cases h

theorem skipDeclare_suffix (ps : List Placed) : skipDeclare ps <:+ ps := by
  unfold skipDeclare
  split
  · exact (skipBreaks_suffix _).trans (List.tail_suffix _)
  · exact List.suffix_rfl

theorem statement?_length {ps : List Placed} {s : Statement × List Placed}
    (h : statement? ps = some s) : s.2.length < ps.length := by
  unfold statement? at h
  split at h
  · rename_i hx
    have hne : 0 < ps.length := by
      cases ps with
      | nil => simp [nextIs] at hx
      | cons => simp
    have h1 := (skipBreaks_suffix ps.tail).length_le
    simp only [List.length_tail] at h1
    simp only at h
    split at h
    · cases h
      have h2 := (exportClause_suffix (skipBreaks ps.tail).tail).length_le
      simp only [List.length_tail] at h2
      omega
    · split at h
      · cases h
      · have h2 := bindingStatement?_length h
        have h3 := (skipDeclare_suffix (skipBreaks ps.tail)).length_le
        omega
  · have h2 := bindingStatement?_length h
    have h3 := (skipDeclare_suffix ps).length_le
    omega

/-- The statements that matter in a row of tokens at a given bracket depth. -/
def statements (depth : Nat) (ps : List Placed) : List Statement :=
  match ps with
  | [] => []
  | p :: qs =>
    if p.token.opens then statements (depth + 1) qs
    else if p.token.closes then statements (depth - 1) qs
    else if depth = 0 ∧ p.token.kind = .word ∧ p.startsStatement then
      match _h : statement? (p :: qs) with
      | some (s, rest) => s :: statements 0 rest
      | none => statements 0 qs
    else statements depth qs
termination_by ps.length
decreasing_by
  all_goals first
    | (simp only [List.length_cons]; omega)
    | exact statement?_length _h

end TableRoster.Source
