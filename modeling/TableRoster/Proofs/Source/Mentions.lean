import TableRoster.Proofs.Source.Clauses

/-! # How a clause mentions a binding

An entry of an export clause mentions one binding, alone or in front of `as` and another name, and
`type` in front of it says that only a type is exported. All of these words are names as well, so what
an entry says depends on how many words it has. -/

namespace TableRoster.Source

/-! ## Entries -/

/-- How an entry mentions a name: behind `type` or not, and with another name or not. -/
structure Mention where
  typeOnly : Bool
  given : Option String

namespace Mention

/-- The words of the entry. -/
def words (f : Mention) (x : String) : List String :=
  (if f.typeOnly then ["type"] else []) ++ x :: (f.given.map fun y => ["as", y]).getD []

/-- The name that the entry exports a value by. -/
def outside (f : Mention) (x : String) : Option String :=
  if f.typeOnly then none else some (f.given.getD x)

/-- A binding named `type` is given another name. -/
def RenamesType (f : Mention) (x : String) : Prop :=
  x = "type" ∧ f.typeOnly = false ∧ f.given ≠ none

end Mention

/-- The words of an entry mention a name. -/
def Mentions (x : String) (words : List String) : Prop :=
  ∃ f : Mention, words = f.words x

variable {x : String} {f : Mention} {t : Token} {ts : List Token} {rows : List (List String)}

/-- An entry is taken as what it says, unless it gives a binding named `type` another name. -/
theorem clauseEntry_words (hf : ∀ y ∈ f.given, isWordText y.toList = true)
    (h : ¬ f.RenamesType x) : clauseEntry (f.words x) = (f.outside x).map fun y => (x, y) := by
  obtain ⟨typeOnly, given⟩ := f
  cases typeOnly with
  | true => cases given <;> simp [Mention.words, Mention.outside, clauseEntry]
  | false =>
    cases given with
    | none => rfl
    | some y =>
      have hne : x ≠ "type" := fun hx => h ⟨hx, rfl, by simp⟩
      exact clauseEntry_as hne (hf y rfl)

theorem clauseEntry_renamesType (h : f.RenamesType x) : clauseEntry (f.words x) = none := by
  obtain ⟨typeOnly, given⟩ := f
  obtain ⟨rfl, rfl, hgiven⟩ := h
  obtain ⟨y, rfl⟩ := Option.ne_none_iff_exists'.1 hgiven
  simp [Mention.words, clauseEntry]

/-- What an entry is taken as names what the entry mentions. -/
theorem mentions_of_clauseEntry {words : List String} {e : String × String}
    (h : clauseEntry words = some e) : Mentions e.1 words := by
  unfold clauseEntry at h
  split at h
  · cases h
    exact ⟨⟨false, none⟩, rfl⟩
  · rename_i x y
    split at h <;> cases h
    exact ⟨⟨false, some y⟩, rfl⟩
  · cases h

/-! ## Rows of entries -/

/-- The inside of a clause: entries with commas between them, each a row of words and strings. Line
breaks may stand anywhere. -/
inductive Rows : List (List String) → List Token → Prop
  | nil : Rows [[]] []
  | lineBreak {rows : List (List String)} {t : Token} {ts : List Token} (ht : t.isBreak = true)
      (h : Rows rows ts) : Rows rows (t :: ts)
  | comma {rows : List (List String)} {t : Token} {ts : List Token} (hk : t.kind = .mark)
      (ht : t.text = ",") (h : Rows rows ts) : Rows ([] :: rows) (t :: ts)
  | word {row : List String} {rows : List (List String)} {t : Token} {ts : List Token}
      (hk : t.kind = .word ∨ t.kind = .string) (h : Rows (row :: rows) ts) :
      Rows ((t.text :: row) :: rows) (t :: ts)

theorem clauseWords_lineBreak (ht : t.isBreak = true) (ts : List Token) :
    clauseWords (t :: ts) = clauseWords ts := by
  have hk : t.kind = .lineBreak := by simpa [Token.isBreak] using ht
  obtain ⟨row, rows, hrows⟩ := List.exists_cons_of_ne_nil (clauseWords_ne_nil ts)
  rw [clauseWords, hrows]
  simp [Token.isMarkOf, hk]

theorem clauseWords_comma (hk : t.kind = .mark) (ht : t.text = ",") (ts : List Token) :
    clauseWords (t :: ts) = [] :: clauseWords ts :=
  clauseWords_append_comma (by simp [Token.isMarkOf, hk, ht]) [] ts

theorem clauseWords_word (hk : t.kind = .word ∨ t.kind = .string) {row : List String}
    (h : clauseWords ts = row :: rows) : clauseWords (t :: ts) = (t.text :: row) :: rows := by
  have hmark : t.isMarkOf [","] = false := by
    rcases hk with hk | hk <;> simp [Token.isMarkOf, hk]
  rw [clauseWords, h]
  simp [hmark, hk]

/-- What can stand in a clause. -/
def Token.Listed (t : Token) : Prop :=
  t.isBreak = true ∨ (t.kind = .mark ∧ t.text = ",") ∨ t.kind = .word ∨ t.kind = .string

instance : DecidablePred Token.Listed := fun _ => inferInstanceAs (Decidable (_ ∨ _))

/-- The rows of a clause are what is read of it. -/
theorem rows_iff : Rows rows ts ↔ clauseWords ts = rows ∧ ∀ t ∈ ts, t.Listed := by
  constructor
  · intro h
    induction h with
    | nil => exact ⟨rfl, List.forall_mem_nil _⟩
    | lineBreak ht _ ih =>
      exact ⟨(clauseWords_lineBreak ht _).trans ih.1, List.forall_mem_cons.2 ⟨.inl ht, ih.2⟩⟩
    | comma hk ht _ ih =>
      refine ⟨?_, List.forall_mem_cons.2 ⟨.inr (.inl ⟨hk, ht⟩), ih.2⟩⟩
      rw [clauseWords_comma hk ht, ih.1]
    | word hk _ ih => exact ⟨clauseWords_word hk ih.1, List.forall_mem_cons.2 ⟨.inr (.inr hk), ih.2⟩⟩
  · rintro ⟨rfl, h⟩
    induction ts with
    | nil => exact .nil
    | cons t ts ih =>
      obtain ⟨ht, hts⟩ := List.forall_mem_cons.1 h
      have hrest := ih hts
      rcases ht with ht | ⟨hk, ht⟩ | hk
      · rw [clauseWords_lineBreak ht]
        exact .lineBreak ht hrest
      · rw [clauseWords_comma hk ht]
        exact .comma hk ht hrest
      · obtain ⟨row, rows, hrows⟩ := List.exists_cons_of_ne_nil (clauseWords_ne_nil ts)
        rw [clauseWords_word hk hrows]
        exact .word hk (hrows ▸ hrest)

instance (rows : List (List String)) (ts : List Token) : Decidable (Rows rows ts) :=
  decidable_of_iff _ rows_iff.symm

theorem Token.Listed.nest? (h : t.Listed) : t.nest? 0 = some 0 := by
  rcases h with ht | ⟨hk, ht⟩ | hk | hk
  · have hk : t.kind = .lineBreak := by simpa [Token.isBreak] using ht
    simp [Token.nest?, Token.opens, Token.closes, Token.isMarkOf, hk]
  all_goals simp [Token.nest?, Token.opens, Token.closes, Token.isMarkOf, *]

theorem balanced_of_listed (h : ∀ t ∈ ts, t.Listed) : Balanced ts := by
  induction ts with
  | nil => rfl
  | cons t ts ih =>
    obtain ⟨ht, hts⟩ := List.forall_mem_cons.1 h
    exact Joins.append (balanced_of_nest? ht.nest?) (ih hts)

/-- A text that starts with an export clause of these entries, behind which no `from` stands. -/
def StartsWithClause (rows : List (List String)) (k : String) : Prop :=
  ∃ e bs o ts z us, tokens k = e :: (bs ++ o :: (ts ++ z :: us)) ∧ e.isExport ∧
    (∀ t ∈ bs, t.isBreak = true) ∧ (o.kind = .mark ∧ o.text = "\x7b") ∧ Rows rows ts ∧
    (z.kind = .mark ∧ z.text = "\x7d") ∧ ∀ t, us.find? (!·.isBreak) = some t → t.text ≠ "from"

theorem nextIs_skipBreaks {us : List Token} {text : String} {before : Option Token}
    (h : ∀ t, us.find? (!·.isBreak) = some t → t.text ≠ text) :
    nextIs (skipBreaks (place before us)) text = false := by
  induction us generalizing before with
  | nil => rfl
  | cons t us ih =>
    cases ht : t.isBreak with
    | true =>
      have hskip : skipBreaks (place before (t :: us)) = skipBreaks (place (some t) us) :=
        skipBreaks_place_append (List.forall_mem_singleton.2 ht) us
      rw [hskip]
      exact ih (by simpa [ht] using h)
    | false =>
      rw [skipBreaks_place_cons ht]
      have hne := h t (by simp [ht])
      simp [nextIs, place, Token.is, hne]

/-- The clause is the first statement of the text. -/
theorem StartsWithClause.first {k : String} (h : StartsWithClause rows k) :
    statementsOf k = .clause (rows.filterMap clauseEntry) :: (statementsOf k).tail := by
  obtain ⟨e, bs, o, ts, z, us, htokens, he, hbs, ho, hts, hz, hfrom⟩ := h
  obtain ⟨hwords, hlisted⟩ := rows_iff.1 hts
  have hstatement : statement? (place none (e :: (bs ++ o :: (ts ++ z :: us)))) = some _ :=
    statement?_clause he hbs ho (balanced_of_listed hlisted) hz
  rw [nextIs_skipBreaks hfrom, if_neg (by decide), hwords] at hstatement
  rw [statementsOf, htokens, statements_of_statement? isStart_none he.1 hstatement]
  rfl

/-! ## Names -/

/-- Of the entries of a clause, those that do not mention a name give it none. -/
theorem filter_of_not_mentions (h : ∀ row ∈ rows, ¬ Mentions x row) :
    (rows.filterMap clauseEntry).filter (·.1 = x) = [] := by
  rw [List.filter_eq_nil_iff]
  intro e he hx
  obtain ⟨row, hrow, hentry⟩ := List.mem_filterMap.1 he
  obtain rfl : e.1 = x := by simpa using hx
  exact h row hrow (mentions_of_clauseEntry hentry)

/-- A clause with one entry that mentions a name gives it what that entry says. -/
theorem StartsWithClause.gives {k : String} {front back : List (List String)}
    (hk : StartsWithClause (front ++ f.words x :: back) k)
    (hone : ∀ row ∈ front ++ back, ¬ Mentions x row) (htail : aliases x (statementsOf k).tail = []) :
    aliases x (statementsOf k) = ((clauseEntry (f.words x)).toList.filter (·.1 = x)).map (·.2) := by
  obtain ⟨hfront, hback⟩ := List.forall_mem_append.1 hone
  have hentries : (front ++ f.words x :: back).filterMap clauseEntry
      = front.filterMap clauseEntry ++ ((clauseEntry (f.words x)).toList ++ back.filterMap clauseEntry) := by
    cases h : clauseEntry (f.words x) <;> simp [h]
  rw [hk.first, ← List.singleton_append, aliases_append, htail, List.append_nil, hentries]
  simp [aliases, filter_of_not_mentions hfront, filter_of_not_mentions hback]

theorem aliasOf_of_aliases {ss : List Statement} {o : Option String} (h : aliases x ss = o.toList) :
    aliasOf x ss = o := by
  rw [aliasOf, h]
  cases o with
  | none => rfl
  | some y => by_cases hy : y = "default" <;> simp [hy]

/-- What an entry gives a name is what it says, unless it gives a binding named `type` another name. -/
theorem aliasOf_mention {ss : List Statement} (hf : ∀ y ∈ f.given, isWordText y.toList = true)
    (h : aliases x ss = ((clauseEntry (f.words x)).toList.filter (·.1 = x)).map (·.2)) :
    aliasOf x ss = f.outside x ↔ ¬ f.RenamesType x := by
  by_cases hr : f.RenamesType x
  · rw [clauseEntry_renamesType hr] at h
    have hnone : aliasOf x ss = none := aliasOf_of_aliases h
    simp [hnone, hr, Mention.outside, hr.2.1]
  · rw [clauseEntry_words hf hr] at h
    have hsome : aliasOf x ss = f.outside x := aliasOf_of_aliases (by
      rw [h]
      cases f.outside x <;> simp)
    simp [hsome, hr]

/-! ## A binding and its clause -/

/-- A line on its own is a statement of its own, whatever stands behind it. -/
theorem Line.Valid.statementsOf_append {l : Line} (hl : l.Valid) (b : String) :
    ∃ s n, l.Stands (l.text ++ ";\n" ++ b).toList s ∧ statementsOf (l.text ++ ";\n" ++ b)
      = s :: (statementsOf b).map (Statement.relocate ⟨(· + (l.text ++ ";\n").length),
          (· + (l.text ++ ";\n").length), (· + n)⟩) := by
  obtain ⟨ts, rd, hr, -, -, hstatements⟩ := hl.reads_text (w := b.toList) (Nat.le_refl Reader.start.line)
  obtain ⟨line, h⟩ := hstatements (lex rd.lineEnd b.toList) isStart_none
  have hoffset : rd.lineEnd.offset = (l.text ++ ";\n").length := by
    rw [hr.offset, String.length_toList, Reader.start, Nat.zero_add]
  have hall : statementsOf (l.text ++ ";\n" ++ b)
      = statements 0 (place none (ts ++ lex rd.lineEnd b.toList)) := by
    rw [statementsOf, tokens, String.toList_append, hr.lex_append]
  rw [h, statements_lex_lineEnd, hoffset] at hall
  refine ⟨_, rd.line, ⟨line, _, _, rfl, ?_⟩, hall⟩
  have hslice := slice_append l.opening l.initializer ([';', '\n'] ++ b.toList)
  simpa [Line.toList_text, Reader.start] using hslice

/-- The first declaration of a text comes behind all of another text in front of it. -/
theorem StaysApart.getElem?_printed {a : String} (ha : StaysApart a) (b : String) :
    ((declarations (a ++ b)).map Declaration.printed)[(declarations a).length]?
      = (((statementsOf b).flatMap (·.declarations b.toList (statementsOf (a ++ b)))).map
          Declaration.printed).head? := by
  have hlength := congrArg List.length (content_flatMap a.toList (statementsOf a) (statementsOf (a ++ b))
    (statementsOf a))
  rw [List.length_map, List.length_map] at hlength
  have hfront : (((statementsOf a).flatMap (·.declarations a.toList (statementsOf (a ++ b)))).map
      Declaration.printed).length = (declarations a).length := by
    rw [List.length_map, hlength, declarations]
  rw [ha.printed_append, List.getElem?_append_right (Nat.le_of_eq hfront), hfront, Nat.sub_self,
    List.head?_eq_getElem?]

/-- An entry of a clause behind a binding exports the binding as it says, unless it gives a binding named
`type` another name. No other entry of the clause mentions the binding, and no other clause of the module
gives it a name; what else stands in the module does not matter. -/
theorem declarations_mentioned {a m k x e : String} {f : Mention} {front back : List (List String)}
    (ha : StaysApart a) (hm : StaysApart m) (hx : isWordText x.toList = true) (hne : x ≠ "enum")
    (he : Complete e) (hf : ∀ y ∈ f.given, isWordText y.toList = true)
    (hk : StartsWithClause (front ++ f.words x :: back) k)
    (hone : ∀ row ∈ front ++ back, ¬ Mentions x row)
    (hothers : aliases x (statementsOf a ++ statementsOf m ++ (statementsOf k).tail) = []) :
    ∃ d, (declarations (a ++ ("const " ++ x ++ " = " ++ e ++ ";\n" ++ (m ++ k))))[(declarations a).length]?
        = some d ∧ d.name = x ∧ d.initializer = some e ∧
      (d.exportName = f.outside x ↔ ¬ f.RenamesType x) := by
  have hline : (Line.mk false "const" x e).Valid :=
    ⟨List.mem_cons_self, hx, hne, he⟩
  have htext : (Line.mk false "const" x e).text = "const " ++ x ++ " = " ++ e := by
    simp [Line.text, String.append_assoc]
  obtain ⟨s, n, hstands, hs⟩ := hline.statementsOf_append (m ++ k)
  rw [htext] at hstands hs
  generalize hb : "const " ++ x ++ " = " ++ e ++ ";\n" ++ (m ++ k) = b at hstands hs ⊢
  obtain ⟨line, start, stop, rfl, hslice⟩ := hstands
  rw [aliases_append, aliases_append, List.append_eq_nil_iff, List.append_eq_nil_iff] at hothers
  obtain ⟨⟨hfront, hbetween⟩, hbehind⟩ := hothers
  have haliases : aliases x (statementsOf (a ++ b))
      = ((clauseEntry (f.words x)).toList.filter (·.1 = x)).map (·.2) := by
    obtain ⟨_, hla⟩ := ha
    obtain ⟨_, hlm⟩ := hm
    rw [hla, aliases_append, aliases_relocate, hfront, hs, ← List.singleton_append, aliases_append,
      aliases_relocate, hlm, aliases_append, aliases_relocate, hbetween, hk.gives hone hbehind]
    simp [aliases]
  have hget := ha.getElem?_printed b
  rw [hs, List.flatMap_cons, List.map_append] at hget
  simp only [Statement.declarations, List.map_cons, List.map_nil, List.singleton_append, List.head?_cons,
    List.getElem?_map, Option.map_some, hslice] at hget
  obtain ⟨d, hd, hprinted⟩ := Option.map_eq_some_iff.1 hget
  obtain ⟨hname, -, hinitializer, hexport⟩ : d.name = x ∧ d.keyword = "const" ∧ d.initializer = some e ∧
      d.exportName = aliasOf x (statementsOf (a ++ b)) := by
    simpa [Declaration.printed] using hprinted
  exact ⟨d, hd, hname, hinitializer, hexport ▸ aliasOf_mention hf haliases⟩

/-- A clause over several lines with a type, a comment and a comma at its end. -/
def severalLines : String :=
  "export \x7b\n  type q as users, // no table\n  users as table,\n\x7d\nlet r\n"

theorem declarations_mentioned_severalLines :
    ∃ d, (declarations ("" ++ ("const " ++ "users" ++ " = " ++ "f(1)" ++ ";\n"
        ++ ("let q = 1;\nexport \x7b q \x7d;\n" ++ severalLines))))[(declarations "").length]? = some d ∧
      d.name = "users" ∧ d.initializer = some "f(1)" ∧ d.exportName = some "table" := by
  have hbetween : EndsStatement "let q = 1;\nexport \x7b q \x7d;\n" := by
    refine ⟨⟨"let q = 1;\nexport \x7b q \x7d", by decide⟩, ?_, by decide +kernel⟩
    exact ⟨(tokens "let q = 1;\nexport \x7b q \x7d;\n").take 10, ⟨.mark, ";", 23, 24, 2⟩,
      [⟨.lineBreak, "\n", 24, 25, 2⟩], by decide +kernel, rfl, rfl, by decide, by decide +kernel⟩
  have hclause : StartsWithClause ([["type", "q", "as", "users"]]
      ++ (⟨false, some "table"⟩ : Mention).words "users" :: [[]]) severalLines := by
    have htokens : tokens severalLines = ⟨.word, "export", 0, 6, 1⟩ :: ([] ++ ⟨.mark, "\x7b", 7, 8, 1⟩ ::
        ([⟨.lineBreak, "\n", 8, 9, 1⟩, ⟨.word, "type", 11, 15, 2⟩, ⟨.word, "q", 16, 17, 2⟩,
            ⟨.word, "as", 18, 20, 2⟩, ⟨.word, "users", 21, 26, 2⟩, ⟨.mark, ",", 26, 27, 2⟩,
            ⟨.lineBreak, "\n", 39, 40, 2⟩, ⟨.word, "users", 42, 47, 3⟩, ⟨.word, "as", 48, 50, 3⟩,
            ⟨.word, "table", 51, 56, 3⟩, ⟨.mark, ",", 56, 57, 3⟩, ⟨.lineBreak, "\n", 57, 58, 3⟩]
          ++ ⟨.mark, "\x7d", 58, 59, 4⟩ :: [⟨.lineBreak, "\n", 59, 60, 4⟩, ⟨.word, "let", 60, 63, 5⟩,
            ⟨.word, "r", 64, 65, 5⟩, ⟨.lineBreak, "\n", 65, 66, 5⟩])) := by
      decide +kernel
    exact ⟨_, _, _, _, _, _, htokens, ⟨rfl, rfl⟩, by simp, ⟨rfl, rfl⟩, by decide, ⟨rfl, rfl⟩, by decide⟩
  have hone : ∀ row ∈ [["type", "q", "as", "users"]] ++ [[]], ¬ Mentions "users" row := by
    rintro row hrow ⟨⟨typeOnly, given⟩, rfl⟩
    cases typeOnly <;> cases given <;> simp [Mention.words] at hrow
  obtain ⟨d, hd, hname, hinitializer, hexport⟩ := declarations_mentioned (x := "users") (e := "f(1)")
    staysApart_empty hbetween.staysApart (by decide) (by decide) (by decide +kernel) (by decide) hclause
    hone (by decide +kernel)
  exact ⟨d, hd, hname, hinitializer, hexport.2 fun h => absurd h.1 (by decide)⟩

/-- An entry that gives a binding named `type` another name exports nothing. -/
theorem declarations_mentioned_ne_type :
    Complete "1" ∧ StartsWithClause ([] ++ (⟨false, some "y"⟩ : Mention).words "type" :: [])
      "export \x7b type as y \x7d;\n" ∧
    (declarations "const type = 1;\nexport \x7b type as y \x7d;\n").map
        (fun d => (d.name, d.exportName)) = [("type", none)] := by
  refine ⟨by decide +kernel, ?_, by decide +kernel⟩
  have htokens : tokens "export \x7b type as y \x7d;\n" = ⟨.word, "export", 0, 6, 1⟩ ::
      ([] ++ ⟨.mark, "\x7b", 7, 8, 1⟩ :: ([⟨.word, "type", 9, 13, 1⟩, ⟨.word, "as", 14, 16, 1⟩,
          ⟨.word, "y", 17, 18, 1⟩] ++ ⟨.mark, "\x7d", 19, 20, 1⟩ :: [⟨.mark, ";", 20, 21, 1⟩,
          ⟨.lineBreak, "\n", 21, 22, 1⟩])) := by
    decide +kernel
  exact ⟨_, _, _, _, _, _, htokens, ⟨rfl, rfl⟩, by simp, ⟨rfl, rfl⟩, by decide, ⟨rfl, rfl⟩, by decide⟩

end TableRoster.Source
