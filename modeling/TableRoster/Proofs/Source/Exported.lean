import TableRoster.Proofs.Source.Clauses

/-! # What bindings are exported by

A module of bindings and clauses exports each binding by one name at most: its own, or the one that its
clauses give it. Where the clauses stand does not matter. -/

namespace TableRoster.Source

variable {rd : Reader} {w s : List Char} {before : Option Token} {us : List Token} {es : List Entry}
  {names : List String} {name : String} {source : List Char}

/-! ## Rows -/

/-- The inside of a string: characters that neither close it nor end its line, and escapes. -/
inductive Quoted (q : Char) : List Char → Prop
  | nil : Quoted q []
  | char {c : Char} {s : List Char} (hq : c ≠ q) (hb : c ≠ '\\') (hn : c ≠ '\n') (h : Quoted q s) :
      Quoted q (c :: s)
  | escape {s : List Char} (c : Char) (h : Quoted q s) : Quoted q ('\\' :: c :: s)

theorem Quoted.afterString {q : Char} (h : Quoted q s) (hq : q ∈ ['\x27', '\x22']) (w : List Char) :
    afterString q (s ++ q :: w) = w := by
  induction h with
  | nil => rw [List.nil_append, afterString_cons (by rintro rfl; simp at hq), if_pos rfl]
  | char hc hb hn _ ih => rw [List.cons_append, afterString_cons hb, if_neg hc, if_neg hn, ih]
  | escape c _ ih => rw [List.cons_append, List.cons_append, Source.afterString, ih]

/-- A statement on a line of its own: a binding, a clause, or a clause that names another module by a
string in these quotes. -/
inductive Row
  | line (l : Line)
  | clause (es : List Entry)
  | passedOn (es : List Entry) (quote : Char) (module : String)

namespace Row

/-- The text of a row, without its end. -/
def text : Row → String
  | line l => l.text
  | clause es => clauseText es
  | passedOn es q m => clauseText es ++ " from " ++ String.ofList (q :: (m.toList ++ [q]))

def Valid : Row → Prop
  | line l => l.Valid
  | clause es => ∀ e ∈ es, e.Valid
  | passedOn es q m => (∀ e ∈ es, e.Valid) ∧ q ∈ ['\x27', '\x22'] ∧ Quoted q m.toList

/-- The statement that a row of a module stands for. -/
def Stands (source : List Char) : Row → Statement → Prop
  | line l, s => l.Stands source s
  | clause es, s => s = .clause (es.map fun e => (e.name, e.outside))
  | passedOn _ _ _, s => s = .passedOn

end Row

/-- The text of a module of rows. -/
def moduleText (rows : List Row) : String :=
  String.join (rows.map fun r => r.text ++ ";\n")

/-- The bindings among some rows. -/
def linesOf (rows : List Row) : List Line :=
  rows.filterMap fun
    | .line l => some l
    | _ => none

/-- The clauses among some rows that name no other module. -/
def clausesOf (rows : List Row) : List (List Entry) :=
  rows.filterMap fun
    | .clause es => some es
    | _ => none

/-- The names that clauses give a name, in order. -/
def given (name : String) (clauses : List (List Entry)) : List String :=
  clauses.flatMap fun es => (es.filter (·.name = name)).map Entry.outside

/-! ## Reading rows -/

/-- The end of a line behind a row of tokens. -/
theorem statements_lineEnd (rd : Reader) (us : List Token) :
    statements 0 (place before (rd.tokenOf .mark [';']
        :: (rd.advance (.token .mark) [';']).tokenOf .lineBreak ['\n'] :: us))
      = statements 0 (place rd.lineEnd.last us) := by
  rw [statements_skip rfl rfl rfl, statements_skip rfl rfl rfl]
  rfl

theorem isStart_lineEnd (rd : Reader) : IsStart rd.lineEnd.last :=
  isStart_some rfl

/-- Behind a clause that names another module stands the string that names it. -/
theorem closed_passedOn {q : Char} (h : ∀ e ∈ es, e.Valid) (hq : q ∈ ['\x27', '\x22'])
    (hs : Quoted q s) : Closed (fun ts => ∃ us n t, ts = us ++ [n, t] ∧ Clause es us ∧
      n.kind = .word ∧ n.text = "from" ∧ t.kind = .string)
      ((clauseText es).toList ++ (" from ".toList ++ q :: (s ++ [q]))) := by
  have hfrom : Closed (fun ts => ∃ n, ts = [n] ∧ n.kind = .word ∧ n.text = "from") " from ".toList :=
    fun rd => ⟨_, _, fun w => Reads.space.append (Reads.spacedWord (s := "from".toList) (by decide)),
      _, rfl, rfl, String.ofList_toList⟩
  have hstring : Closed (fun ts => ∃ t, ts = [t] ∧ t.kind = .string) (q :: (s ++ [q])) :=
    closed_quoted (hs.afterString hq) hq fun t hk _ => ⟨t, rfl, hk⟩
  refine (closed_clause h).join_closed (hfrom.join_closed (R := fun ts => ∃ n t, ts = [n, t] ∧
    n.kind = .word ∧ n.text = "from" ∧ t.kind = .string) hstring ?_) ?_
  · rintro _ _ ⟨n, rfl, hk, hn⟩ ⟨t, rfl, ht⟩
    exact ⟨n, t, rfl, hk, hn, ht⟩
  · rintro us _ hus ⟨n, t, rfl, hn⟩
    exact ⟨us, n, t, rfl, hus, hn⟩

/-- A row is read from the start of a line up to the start of the next, as one statement. -/
theorem Row.Valid.reads {r : Row} (hr : r.Valid) {pre : List Char} (hp : 1 ≤ rd.line)
    (hs : IsStart rd.last) (ho : rd.offset = pre.length) (w : List Char) :
    ∃ ts rd', Reads w rd (r.text ++ ";\n").toList ts rd' ∧ IsStart rd'.last ∧
      ∀ us, ∃ s, r.Stands (pre ++ ((r.text ++ ";\n").toList ++ w)) s ∧
        statements 0 (place rd.last (ts ++ us)) = s :: statements 0 (place rd'.last us) := by
  cases r with
  | line l =>
    obtain ⟨ts, rd', hread, hs', hall⟩ := Line.Valid.carries (l := l) hr rd pre w hp hs ho
    refine ⟨ts, rd', hread, hs', fun us => ?_⟩
    obtain ⟨ss, hss, h⟩ := hall us
    obtain ⟨s, _, hstands, hnil, rfl⟩ := List.forall₂_cons_left_iff.1 hss
    obtain rfl := List.forall₂_nil_left_iff.1 hnil
    exact ⟨s, hstands, h⟩
  | clause es =>
    obtain ⟨ts, rd₁, hread, hclause⟩ := closed_clause hr rd
    refine ⟨_, rd₁.lineEnd, by simpa [Row.text] using (hread _).append .lineEnd, isStart_lineEnd rd₁,
      fun us => ⟨_, rfl, ?_⟩⟩
    have hsemicolon : (rd₁.tokenOf .mark [';']).is "from" = false := by simp [Token.is, Reader.tokenOf]
    rw [List.append_assoc, List.cons_append, hclause.statements hs rfl, hsemicolon, List.cons_append,
      List.nil_append, statements_lineEnd]
    rfl
  | passedOn es q m =>
    obtain ⟨hes, hq, hm⟩ := hr
    obtain ⟨_, rd₁, hread, ts, n, t, rfl, hclause, hk, hn, ht⟩ := closed_passedOn hes hq hm rd
    have hfrom : n.is "from" = true := by simp [Token.is_of_word hk, hn]
    have hidle : t.Idle := Token.idle_of_kind (by simp [ht]) (by simp [ht])
    refine ⟨_, rd₁.lineEnd, by simpa [Row.text] using (hread _).append .lineEnd, isStart_lineEnd rd₁,
      fun us => ⟨_, rfl, ?_⟩⟩
    rw [List.append_assoc]
    simp only [List.cons_append, List.nil_append]
    rw [hclause.statements hs (Token.isBreak_of_word hk), if_pos hfrom, hidle.statements,
      statements_lineEnd]

/-- Rows read behind `pre` stand for their statements, one each. -/
theorem statements_rows {rows : List Row} (h : ∀ r ∈ rows, r.Valid) {rd : Reader} {pre : List Char}
    (hp : 1 ≤ rd.line) (hs : IsStart rd.last) (ho : rd.offset = pre.length) :
    List.Forall₂ (Row.Stands (pre ++ (moduleText rows).toList)) rows
      (statements 0 (place rd.last (lex rd (moduleText rows).toList))) := by
  induction rows generalizing rd pre with
  | nil => simp [moduleText, lex, place, statements]
  | cons r rows ih =>
    obtain ⟨hr, hrows⟩ := List.forall_mem_cons.1 h
    have htext : (moduleText (r :: rows)).toList
        = (r.text ++ ";\n").toList ++ (moduleText rows).toList := by
      simp [moduleText, String.join_cons]
    obtain ⟨ts, rd', hread, hs', hall⟩ := hr.reads hp hs ho (moduleText rows).toList
    obtain ⟨s, hstands, hstatement⟩ := hall (lex rd' (moduleText rows).toList)
    have hoffset : rd'.offset = (pre ++ (r.text ++ ";\n").toList).length := by
      rw [hread.offset, ho, List.length_append]
    have hrest := ih hrows (Nat.le_trans hp hread.line_le) hs' hoffset
    rw [htext, hread.lex_append, hstatement]
    exact .cons hstands (by rwa [List.append_assoc] at hrest)

theorem stands_moduleText {rows : List Row} (h : ∀ r ∈ rows, r.Valid) :
    List.Forall₂ (Row.Stands (moduleText rows).toList) rows (statementsOf (moduleText rows)) := by
  have hline : 1 ≤ Reader.start.line := Nat.le_refl 1
  have hoffset : Reader.start.offset = ([] : List Char).length := rfl
  exact statements_rows h hline isStart_none hoffset

/-! ## The name of an export -/

/-- The name that some names given in order make a binding known by: the first that is not `default`, or
else `default`. -/
inductive KnownBy : List String → Option String → Prop
  | none : KnownBy [] none
  | default {names : List String} (hne : names ≠ []) (h : ∀ y ∈ names, y = "default") :
      KnownBy names (some "default")
  | name {front back : List String} {y : String} (h : ∀ x ∈ front, x = "default") (hy : y ≠ "default") :
      KnownBy (front ++ y :: back) (some y)

theorem knownBy_find (names : List String) :
    KnownBy names ((names.find? (· ≠ "default")).or names.head?) := by
  cases hfind : names.find? (· ≠ "default") with
  | some y =>
    obtain ⟨hy, front, back, rfl, hfront⟩ := List.find?_eq_some_iff_append.1 hfind
    exact .name (by simpa using hfront) (by simpa using hy)
  | none =>
    have hall : ∀ y ∈ names, y = "default" := by simpa using hfind
    cases names with
    | nil => exact .none
    | cons y names =>
      obtain rfl := hall y List.mem_cons_self
      exact .default (by simp) hall

/-- The clauses of a module give the names that its statements tell. -/
theorem aliases_of_stands {rows : List Row} {ss : List Statement}
    (h : List.Forall₂ (Row.Stands source) rows ss) (name : String) :
    aliases name ss = given name (clausesOf rows) := by
  induction h with
  | nil => rfl
  | @cons r s rows ss hs _ ih =>
    rw [aliases, List.flatMap_cons, ← aliases, ih]
    cases r with
    | line l =>
      obtain ⟨_, _, _, rfl, _⟩ := hs
      rfl
    | clause es =>
      obtain rfl := hs
      simp [clausesOf, given, List.filter_map, Function.comp_def]
    | passedOn =>
      obtain rfl := hs
      rfl

/-- What is declared for a line among some statements. -/
def Declared (all : List Statement) (l : Line) (d : Declaration) : Prop :=
  d.name = l.name ∧ d.keyword = l.keyword ∧ d.initializer = some l.initializer ∧
    d.exportName = if l.exported then some l.name else aliasOf l.name all

theorem declared_of_stands {rows : List Row} {ss : List Statement}
    (h : List.Forall₂ (Row.Stands source) rows ss) (all : List Statement) :
    List.Forall₂ (Declared all) (linesOf rows) (ss.flatMap (·.declarations source all)) := by
  induction h with
  | nil => exact .nil
  | @cons r s rows ss hs _ ih =>
    rw [List.flatMap_cons]
    cases r with
    | line l =>
      obtain ⟨_, _, _, rfl, hslice⟩ := hs
      exact .cons ⟨rfl, rfl, by simp [hslice], rfl⟩ ih
    | clause | passedOn =>
      obtain rfl := hs
      exact ih

theorem declared_moduleText {rows : List Row} (h : ∀ r ∈ rows, r.Valid) :
    List.Forall₂ (Declared (statementsOf (moduleText rows))) (linesOf rows)
      (declarations (moduleText rows)) :=
  declared_of_stands (stands_moduleText h) _

theorem printed_of_declared {all : List Statement} {ls : List Line} {ds : List Declaration}
    (h : List.Forall₂ (Declared all) ls ds) : ds.map Declaration.printed
      = ls.map fun l => (l.name, l.keyword, some l.initializer,
          if l.exported then some l.name else aliasOf l.name all) := by
  induction h with
  | nil => rfl
  | cons hd _ ih =>
    obtain ⟨hname, hkeyword, hinitializer, hexport⟩ := hd
    rw [List.map_cons, List.map_cons, ih, Declaration.printed, hname, hkeyword, hinitializer, hexport]

/-- A binding declared with `export` is exported by its own name, any other by what the clauses give it. The
place of the clauses does not matter, nor do those that name another module. -/
theorem declarations_rows {rows : List Row} (h : ∀ r ∈ rows, r.Valid) :
    List.Forall₂ (fun l d =>
        (d.name = l.name ∧ d.keyword = l.keyword ∧ d.initializer = some l.initializer) ∧
        (l.exported = true → d.exportName = some l.name) ∧
        (l.exported = false → KnownBy (given l.name (clausesOf rows)) d.exportName))
      (linesOf rows) (declarations (moduleText rows)) ∧
    ∀ rows', (∀ r ∈ rows', r.Valid) → linesOf rows' = linesOf rows →
      clausesOf rows' = clausesOf rows →
        (declarations (moduleText rows')).map Declaration.printed
          = (declarations (moduleText rows)).map Declaration.printed := by
  have hknown : ∀ {rows : List Row}, (∀ r ∈ rows, r.Valid) → ∀ name,
      aliases name (statementsOf (moduleText rows)) = given name (clausesOf rows) :=
    fun h name => aliases_of_stands (stands_moduleText h) name
  refine ⟨(declared_moduleText h).imp fun l d hd => ?_, fun rows' h' hlines hclauses => ?_⟩
  · obtain ⟨hname, hkeyword, hinitializer, hexport⟩ := hd
    refine ⟨⟨hname, hkeyword, hinitializer⟩, fun hl => by simpa [hl] using hexport, fun hl => ?_⟩
    rw [if_neg (by simp [hl])] at hexport
    rw [hexport, aliasOf, hknown h]
    exact knownBy_find _
  · have hsame : ∀ name, aliasOf name (statementsOf (moduleText rows'))
        = aliasOf name (statementsOf (moduleText rows)) := fun name => by
      rw [aliasOf, aliasOf, hknown h, hknown h', hclauses]
    rw [printed_of_declared (declared_moduleText h), printed_of_declared (declared_moduleText h'), hlines]
    simp only [hsame]

/-- Clauses in front of a binding and behind it, and one that names another module. -/
def clausesAround : List Row :=
  [.clause [⟨"x", some "default"⟩, ⟨"x", some "y"⟩], .passedOn [⟨"x", some "z"⟩] '\x27' "\\'m",
    .line ⟨false, "let", "x", "1"⟩, .clause [⟨"x", none⟩]]

/-- The same binding with the same clauses, all of them behind it. -/
def clausesBehind : List Row :=
  [.line ⟨false, "let", "x", "1"⟩, .clause [⟨"x", some "default"⟩, ⟨"x", some "y"⟩],
    .clause [⟨"x", none⟩]]

theorem declarations_clausesAround :
    (∃ d, declarations (moduleText clausesAround) = [d] ∧ d.name = "x" ∧
      KnownBy ["default", "y", "x"] d.exportName) ∧
    (declarations (moduleText clausesBehind)).map Declaration.printed
      = (declarations (moduleText clausesAround)).map Declaration.printed := by
  have hline : (Row.line ⟨false, "let", "x", "1"⟩).Valid :=
    ⟨by decide, by decide, by decide, by decide +kernel⟩
  have hgiven : ∀ y ∈ ["default", "y", "z"], (⟨"x", some y⟩ : Entry).Valid := by
    intro y hy
    have hname : isWordText "x".toList = true := by decide
    have hword : isWordText y.toList = true := by
      revert y
      decide
    exact ⟨hname, by rintro _ ⟨⟩; exact ⟨hword, by simp⟩⟩
  have hfirst : (Row.clause [⟨"x", some "default"⟩, ⟨"x", some "y"⟩]).Valid :=
    List.forall_mem_cons.2 ⟨hgiven _ (by simp), List.forall_mem_singleton.2 (hgiven _ (by simp))⟩
  have hlast : (Row.clause [⟨"x", none⟩]).Valid := List.forall_mem_singleton.2 ⟨by decide, nofun⟩
  have hpassed : (Row.passedOn [⟨"x", some "z"⟩] '\x27' "\\'m").Valid :=
    ⟨List.forall_mem_singleton.2 (hgiven _ (by simp)), by decide,
      .escape '\x27' (.char (by decide) (by decide) (by decide) .nil)⟩
  have haround : ∀ r ∈ clausesAround, r.Valid := by
    simp only [clausesAround, List.forall_mem_cons]
    exact ⟨hfirst, hpassed, hline, hlast, List.forall_mem_nil _⟩
  have hbehind : ∀ r ∈ clausesBehind, r.Valid := by
    simp only [clausesBehind, List.forall_mem_cons]
    exact ⟨hline, hfirst, hlast, List.forall_mem_nil _⟩
  obtain ⟨hdeclared, hsame⟩ := declarations_rows haround
  refine ⟨?_, hsame _ hbehind rfl rfl⟩
  obtain ⟨d, _, hd, hnil, hds⟩ := List.forall₂_cons_left_iff.1 hdeclared
  obtain rfl := List.forall₂_nil_left_iff.1 hnil
  exact ⟨d, hds, hd.1.1, hd.2.2 rfl⟩

end TableRoster.Source
