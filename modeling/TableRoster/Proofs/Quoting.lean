import TableRoster.Proofs.Closing
import TableRoster.Proofs.Source.Clauses
import TableRoster.Proofs.Source.Element
import TableRoster.Proofs.Specifier

/-! # Specifiers between quotes

A body has each specifier twice, once between single quotes and once between double ones, and as it is. It
is read back whole in both places just if it holds neither. -/

namespace TableRoster

open Source Text

namespace Source

variable {rd : Reader} {s x : List Char} {t : Token} {ts us : List Token}
  {ks ks' : List (Kind × String)} {q : Char}

/-! ## Rows of tokens by what they are -/

/-- What a token is, wherever it stands. -/
def Token.content (t : Token) : Kind × String :=
  (t.kind, t.text)

/-- A row of tokens of these kinds and texts. -/
def Consists (ks : List (Kind × String)) (ts : List Token) : Prop :=
  ts.map Token.content = ks

theorem Consists.append (h : Consists ks ts) (h' : Consists ks' us) :
    Consists (ks ++ ks') (ts ++ us) := by
  rw [Consists, List.map_append, h, h']

theorem consists_single (k : Kind) (hk : t.kind = k) (ht : t.text = String.ofList s) :
    Consists [(k, String.ofList s)] [t] := by
  simp [Consists, Token.content, hk, ht]

theorem makes_wordOf (hs : isWordText s = true) : Makes (Consists [(.word, String.ofList s)]) s :=
  makes_word hs fun _ hk ht => consists_single .word hk ht

theorem closed_markOf {c : Char} (hc : c ∈ singleMarks) :
    Closed (Consists [(.mark, String.ofList [c])]) [c] :=
  closed_mark hc fun _ hk ht => consists_single .mark hk ht

theorem closed_stringOf (hs : Quotable s) (hq : q ∈ ['\x27', '\x22']) :
    Closed (Consists [(.string, String.ofList (q :: (s ++ [q])))]) (q :: (s ++ [q])) :=
  closed_string hs hq fun _ hk ht => consists_single .string hk ht

theorem closed_lineEndOf : Closed (Consists [(.mark, ";"), (.lineBreak, "\n")]) [';', '\n'] :=
  fun _ => ⟨_, _, fun _ => .lineEnd, rfl⟩

/-- A blank behind a text changes nothing of what is read. -/
theorem Closed.spaced (hx : Closed (Consists ks) x) : Closed (Consists ks) (x ++ [' ']) :=
  hx.join_closed closed_blank (by rintro ts _ hts rfl; simpa using hts)

theorem Makes.spaced (hx : Makes (Consists ks) x) : Closed (Consists ks) (x ++ [' ']) :=
  hx.join_closed closed_blank (fun _ => rfl) (by rintro ts _ hts rfl; simpa using hts)

variable {α : Type} {as : List α} {f : α → List Char} {g : α → List (Kind × String)}

theorem closed_flatMap (h : ∀ a ∈ as, Closed (Consists (g a)) (f a)) :
    Closed (Consists (as.flatMap g)) (as.flatMap f) := by
  induction as with
  | nil => exact fun rd => ⟨[], rd, fun _ => .nil, rfl⟩
  | cons a as ih =>
      obtain ⟨ha, has⟩ := List.forall_mem_cons.1 h
      exact ha.join_closed (ih has) Consists.append

/-- Words with a comma between them. -/
def wordRow (names : List String) : List (Kind × String) :=
  [(.mark, ",")].intercalate (names.map fun n => [(.word, n)])

/-- Words with a comma and a blank in front of each. -/
theorem makes_moreWords {names : List String} (h : ∀ n ∈ names, isWordText n.toList = true) :
    Makes (Consists (names.flatMap fun n => [(.mark, ","), (.word, n)]))
        (names.flatMap fun n => [',', ' '] ++ n.toList) ∧
      Apart (names.flatMap fun n => [',', ' '] ++ n.toList) := by
  induction names with
  | nil => exact ⟨fun rd => ⟨[], rd, fun _ _ => .nil, rfl⟩, rfl⟩
  | cons n names ih =>
      obtain ⟨hn, hnames⟩ := List.forall_mem_cons.1 h
      obtain ⟨hrest, hapart⟩ := ih hnames
      have hword := (makes_wordOf hn).join hrest hapart Consists.append
      have hall := (closed_markOf (c := ',') (by decide)).spaced.join hword Consists.append
      exact ⟨by simpa using hall, rfl⟩

theorem makes_wordRow {names : List String} (h : ∀ n ∈ names, isWordText n.toList = true) :
    Makes (Consists (wordRow names)) ([',', ' '].intercalate (names.map String.toList)) := by
  cases names with
  | nil => exact fun rd => ⟨[], rd, fun _ _ => .nil, rfl⟩
  | cons n names =>
      obtain ⟨hn, hnames⟩ := List.forall_mem_cons.1 h
      obtain ⟨hrest, hapart⟩ := makes_moreWords hnames
      have hall := (makes_wordOf hn).join hrest hapart Consists.append
      rw [wordRow, List.map_cons, List.map_cons, intercalate_cons, intercalate_cons, List.flatMap_map,
        List.flatMap_map]
      simpa using hall

/-! ## What stands between the quotes of a string -/

/-- A string ends at the first of its quotes that no backslash hides, at the latest. -/
theorem suffix_afterString (hs : '\\' ∉ s) (hq : q ∈ s) (w : List Char) : w <:+ afterString q (s ++ w) := by
  induction s with
  | nil => cases hq
  | cons c s ih =>
      simp only [List.mem_cons, not_or] at hs
      rw [List.cons_append, afterString_cons (Ne.symm hs.1)]
      split
      · exact List.suffix_append s w
      · rename_i hc
        split
        · exact (List.suffix_append s w).trans (List.suffix_cons c _)
        · exact ih hs.2 ((List.mem_cons.1 hq).resolve_left (Ne.symm hc))

/-- Without a backslash, a string holds none of its quotes. -/
theorem quote_not_mem (ht : t ∈ lex rd x) (hk : t.kind = .string)
    (htext : t.text = String.ofList (q :: (s ++ [q]))) (hs : '\\' ∉ s) : q ∉ s := by
  intro hq
  obtain ⟨rd', c, r, z, rest, e, hnext, hsplit, -, -, htoken⟩ := mem_lex ht
  rcases Reader.token?_cases htoken with ⟨hbreak, -⟩ | ⟨k, rfl, rfl⟩
  · simp [Token.isBreak, hk] at hbreak
  obtain rfl : k = .string := hk
  obtain rfl : z = q :: (s ++ [q]) := by simpa [Reader.tokenOf, ← String.toList_inj] using htext
  obtain ⟨rfl, hrest⟩ := List.cons.inj hsplit
  have hr : r = s ++ ([c] ++ rest) := hrest.trans (List.append_assoc s [c] rest)
  have hafter : afterString c r = rest := by
    cases Element.next_starts hnext with
    | string => rfl
  rw [hr] at hafter
  have hlength := (suffix_afterString hs hq ([c] ++ rest)).length_le
  rw [hafter] at hlength
  simp at hlength

end Source

namespace Layout

variable {s : Settings} {ts : List Table} {spec : String} {g : String × List String}

/-! ## The rows of a body -/

/-- The tokens of an import, by what they are. -/
def importRow (g : String × List String) : List (Kind × String) :=
  (.word, "import") :: (.mark, "\x7b") :: (wordRow g.2
    ++ [(.mark, "\x7d"), (.word, "from"), (.string, "'" ++ g.1 ++ "'"), (.mark, ";"), (.lineBreak, "\n")])

/-- The tokens of a re-export, by what they are. -/
def exportRow (specifier : String) : List (Kind × String) :=
  [(.word, "export"), (.mark, "*"), (.word, "from"), (.string, "\x22" ++ specifier ++ "\x22"), (.mark, ";"),
    (.lineBreak, "\n")]

theorem closed_importLine (hspec : Quotable g.1.toList) (hnames : ∀ n ∈ g.2, isWordText n.toList = true) :
    Closed (Consists (importRow g)) (importLine g ++ "\n").toList := by
  have hend := (closed_stringOf (q := '\x27') hspec (by decide)).join_closed closed_lineEndOf
    Consists.append
  have hfrom := (makes_wordOf (s := "from".toList) (by decide)).spaced.join_closed hend Consists.append
  have hclose := (closed_markOf (c := '\x7d') (by decide)).spaced.join_closed hfrom Consists.append
  have hrow := (makes_wordRow hnames).spaced.join_closed hclose Consists.append
  have hopen := (closed_markOf (c := '\x7b') (by decide)).spaced.join_closed hrow Consists.append
  have hall := (makes_wordOf (s := "import".toList) (by decide)).spaced.join_closed hopen Consists.append
  simpa [importRow, importLine, String.append_assoc] using hall

theorem closed_reexportLine (hspec : Quotable spec.toList) :
    Closed (Consists (exportRow spec)) (reexportLine spec ++ "\n").toList := by
  have hend := (closed_stringOf (q := '\x22') hspec (by decide)).join_closed closed_lineEndOf
    Consists.append
  have hfrom := (makes_wordOf (s := "from".toList) (by decide)).spaced.join_closed hend Consists.append
  have hstar : Closed (Consists [(.mark, "*")]) ['*', ' '] :=
    closed_spacedMark (by decide) fun t hk ht => consists_single .mark hk ht
  have hall := (makes_wordOf (s := "export".toList) (by decide)).spaced.join_closed
    (hstar.join_closed hfrom Consists.append) Consists.append
  simpa [exportRow, reexportLine, String.append_assoc] using hall

/-! ## The body -/

theorem toList_lines {rows : List String} (hne : rows ≠ []) :
    ("\n".intercalate rows ++ "\n").toList = rows.flatMap fun r => (r ++ "\n").toList := by
  induction rows with
  | nil => exact absurd rfl hne
  | cons r rows ih =>
      by_cases hnil : rows = []
      · simp [hnil]
      · rw [String.intercalate_cons_of_ne_nil hnil, List.flatMap_cons, ← ih hnil]
        simp

/-- A text that settles is read by itself in front of anything. -/
theorem Settles.closed {x : String} (h : Settles x) : Closed Flat x.toList := by
  obtain ⟨m, hm, hflat⟩ := h
  rw [hm]
  exact hflat.join_closed (flat_semicolon.append_closed flat_lineBreak) (fun _ => rfl) Joins.append

/-- What stands between the imports and the re-exports of a body. -/
def between (s : Settings) (ts : List Table) : String :=
  "\n" ++ ((aggregate s.aggregateName ts ++ "\n") ++ ("\n" ++ "// Re-export every scanned schema module\n"))

/-- A body starts with its imports, its aggregate and its re-exports. -/
theorem body_front (s : Settings) (ts : List Table) : ∃ rest, body s ts = imports ts ++ ("\n\n"
    ++ (aggregate s.aggregateName ts ++ ("\n\n" ++ (reexports ts ++ ("\n" ++ rest))))) := by
  let further := (if s.emitTypes then [typeSection s.aggregateName] else [])
    ++ (if s.emitNames then [namesSection ts, nameTypeSection] else [])
  have hsections : sections s ts = imports ts :: aggregate s.aggregateName ts :: reexports ts :: further := by
    simp [sections, further]
  have htail : ∃ rest : String, "\n\n".intercalate (reexports ts :: further) ++ "\n"
      = reexports ts ++ ("\n" ++ rest) := by
    by_cases hnil : further = []
    · exact ⟨"", by simp [hnil]⟩
    · refine ⟨"\n" ++ ("\n\n".intercalate further ++ "\n"), ?_⟩
      rw [String.intercalate_cons_of_ne_nil hnil]
      simp [← String.toList_inj]
  obtain ⟨rest, hrest⟩ := htail
  refine ⟨rest, ?_⟩
  rw [body, hsections, String.intercalate_cons_of_ne_nil (by simp),
    String.intercalate_cons_of_ne_nil (by simp)]
  simp only [String.append_assoc]
  rw [hrest]

/-- Blank lines are cut between their line breaks. -/
theorem cut_breaks (a b c d e : String) :
    a ++ ("\n\n" ++ (b ++ ("\n\n" ++ (c ++ d ++ ("\n" ++ e)))))
      = a ++ "\n" ++ ("\n" ++ (b ++ "\n" ++ ("\n" ++ c)) ++ (d ++ "\n" ++ e)) := by
  simp [← String.toList_inj]

/-- The import lines of a body come first, and its re-exports stand behind the aggregate. -/
theorem toList_body (hne : ts ≠ []) : ∃ rest, (body s ts).toList
    = ((groups ts).flatMap fun g => (importLine g ++ "\n").toList)
      ++ ((between s ts).toList
        ++ (((specifiers ts).flatMap fun x => (reexportLine x ++ "\n").toList) ++ rest)) := by
  have himports : (imports ts ++ "\n").toList
      = (groups ts).flatMap fun g => (importLine g ++ "\n").toList := by
    rw [imports, toList_lines (by simpa [groups] using specifiers_ne_nil hne), List.flatMap_map]
  have hreexports : ("\n".intercalate ((specifiers ts).map reexportLine) ++ "\n").toList
      = (specifiers ts).flatMap fun x => (reexportLine x ++ "\n").toList := by
    rw [toList_lines (by simpa using specifiers_ne_nil hne), List.flatMap_map]
  obtain ⟨rest, hbody⟩ := body_front s ts
  have hsplit : body s ts = imports ts ++ "\n" ++ (between s ts
      ++ ("\n".intercalate ((specifiers ts).map reexportLine) ++ "\n" ++ rest)) :=
    hbody.trans (cut_breaks _ _ _ _ rest)
  refine ⟨rest.toList, ?_⟩
  rw [hsplit, String.toList_append, himports, String.toList_append, String.toList_append, hreexports]

theorem closed_between (hs : s.Valid) (hne : ts ≠ [])
    (hts : ∀ t ∈ ts, isWordText t.symbol.toList = true) : Closed Flat (between s ts).toList := by
  have hcomment : Closed Flat "// Re-export every scanned schema module\n".toList :=
    closed_lineComment (s := " Re-export every scanned schema module".toList) (by decide) flat_of_break
  have hbreak : "\n".toList = ['\n'] := by simp
  have haggregate := (settles_aggregate (isWordText_names hs.aggregate_ok).1 hts hne).closed
  rw [String.toList_append, hbreak] at haggregate
  rw [between, String.toList_append, String.toList_append, String.toList_append, String.toList_append, hbreak]
  exact flat_lineBreak.append_closed (haggregate.append_closed (flat_lineBreak.append_closed hcomment))

/-- A body whose specifiers can be quoted is read back with an import and a re-export of each. -/
theorem tokens_body (hs : s.Valid) (hne : ts ≠ [])
    (hts : ∀ t ∈ ts, isWordText t.symbol.toList = true ∧ Quotable t.specifier.toList) :
    ∃ inner rest, (tokens (body s ts)).map Token.content
      = (groups ts).flatMap importRow ++ (inner ++ ((specifiers ts).flatMap exportRow ++ rest)) := by
  have hspecifiers : ∀ x ∈ specifiers ts, Quotable x.toList := by
    simp only [specifiers, mem_firstSeen, List.forall_mem_map]
    exact fun t ht => (hts t ht).2
  have himports : ∀ g ∈ groups ts, Closed (Consists (importRow g)) (importLine g ++ "\n").toList := by
    simp only [groups, List.forall_mem_map]
    intro x hx
    refine closed_importLine (hspecifiers x hx) (List.forall_mem_map.2 fun t ht => ?_)
    exact (hts t (List.mem_filter.1 ht).1).1
  obtain ⟨rest, hbody⟩ := toList_body (s := s) hne
  obtain ⟨us, rd₁, hread₁, hus⟩ := closed_flatMap himports .start
  obtain ⟨vs, rd₂, hread₂, -⟩ := closed_between hs hne (fun t ht => (hts t ht).1) rd₁
  obtain ⟨ws, rd₃, hread₃, hws⟩ :=
    closed_flatMap (fun x hx => closed_reexportLine (hspecifiers x hx)) rd₂
  refine ⟨vs.map Token.content, (lex rd₃ rest).map Token.content, ?_⟩
  rw [tokens, hbody, (hread₁ _).lex_append, (hread₂ _).lex_append, (hread₃ _).lex_append,
    List.map_append, List.map_append, List.map_append, hus, hws]

/-- A body that is read back so has no quote in a specifier, if no backslash hides one. -/
theorem quotes_not_mem {x text : String} (hx : x ∈ specifiers ts) (hback : '\\' ∉ x.toList)
    {inner rest : List (Kind × String)} (h : (tokens text).map Token.content
      = (groups ts).flatMap importRow ++ (inner ++ ((specifiers ts).flatMap exportRow ++ rest))) :
    '\x27' ∉ x.toList ∧ '\x22' ∉ x.toList := by
  have htoken : ∀ (q : Char) (text' : String), text' = String.ofList (q :: (x.toList ++ [q])) →
      (Kind.string, text') ∈ (tokens text).map Token.content → q ∉ x.toList := by
    intro q text' htext hq
    obtain ⟨t, ht, hcontent⟩ := List.mem_map.1 hq
    obtain ⟨hk, rfl⟩ := Prod.mk.inj hcontent
    exact quote_not_mem ht hk htext hback
  have hgroup : (x, (ts.filter (·.specifier = x)).map (·.symbol)) ∈ groups ts :=
    List.mem_map.2 ⟨x, hx, rfl⟩
  rw [h] at htoken
  refine ⟨htoken _ ("'" ++ x ++ "'") (by rw [← String.toList_inj]; simp) (List.mem_append_left _ ?_),
    htoken _ ("\x22" ++ x ++ "\x22") (by rw [← String.toList_inj]; simp) ?_⟩
  · exact List.mem_flatMap.2 ⟨_, hgroup, by simp [importRow]⟩
  · refine List.mem_append_right _ (List.mem_append_right _ (List.mem_append_left _ ?_))
    exact List.mem_flatMap.2 ⟨x, hx, by simp [exportRow]⟩

/-- The body of tables with resolved specifiers is read back with an import and a re-export of each
specifier just if no specifier holds a quote. -/
theorem tokens_body_iff {here : List String} {folder : Path} (hs : s.Valid) (hne : ts ≠ [])
    (hts : ∀ t ∈ ts, isWordText t.symbol.toList = true ∧ t.module.isAbsolute = true
      ∧ '\n' ∉ t.module.text.toList) :
    (∃ inner rest, (tokens (body s (ts.map (Table.resolve here [] folder)))).map Token.content
      = (groups (ts.map (Table.resolve here [] folder))).flatMap importRow
        ++ (inner ++ ((specifiers (ts.map (Table.resolve here [] folder))).flatMap exportRow ++ rest))) ↔
      ∀ x ∈ specifiers (ts.map (Table.resolve here [] folder)), '\x27' ∉ x.toList ∧ '\x22' ∉ x.toList := by
  have hclean : ∀ t ∈ ts, '\\' ∉ (Specifier.of here [] folder t.module).toList
      ∧ '\n' ∉ (Specifier.of here [] folder t.module).toList := by
    intro t ht
    obtain ⟨-, habsolute, hbreak⟩ := hts t ht
    rw [Specifier.of_nil]
    refine ⟨fun h => (Specifier.mem_relative habsolute h).1 rfl, fun h => ?_⟩
    rcases (Specifier.mem_relative habsolute h).2 with h | h | h
    exacts [absurd h (by decide), absurd h (by decide), hbreak h]
  have hmem : ∀ x, x ∈ specifiers (ts.map (Table.resolve here [] folder)) ↔
      ∃ t ∈ ts, Specifier.of here [] folder t.module = x := by
    simp [specifiers, mem_firstSeen, Table.resolve]
  constructor
  · rintro ⟨inner, rest, h⟩ x hx
    obtain ⟨t, ht, rfl⟩ := (hmem x).1 hx
    exact quotes_not_mem hx (hclean t ht).1 h
  · intro hquotes
    refine tokens_body hs (by simpa using hne) ?_
    simp only [List.forall_mem_map, Table.resolve]
    intro t ht
    refine ⟨(hts t ht).1, ?_⟩
    obtain ⟨hsingle, hdouble⟩ := hquotes _ ((hmem _).2 ⟨t, ht, rfl⟩)
    obtain ⟨hback, hbreak⟩ := hclean t ht
    intro c hc hspecial
    simp only [List.mem_cons, List.not_mem_nil, or_false] at hspecial
    rcases hspecial with rfl | rfl | rfl | rfl
    exacts [hsingle hc, hdouble hc, hback hc, hbreak hc]

/-- Tables of two modules in different folders. -/
def apartTables : List Table :=
  [⟨"users", ⟨.slash, ["r", "db", "auth", "users.ts"]⟩, ""⟩, ⟨"posts", ⟨.slash, ["r", "posts.d.ts"]⟩, ""⟩]

theorem tokens_body_iff_apart : ∃ inner rest, (tokens (body (folderSettings "db")
      (apartTables.map (Table.resolve [] [] ⟨.slash, ["r", "db"]⟩)))).map Token.content
    = importRow ("./auth/users", ["users"]) ++ importRow ("../posts.d", ["posts"])
      ++ (inner ++ (exportRow "./auth/users" ++ exportRow "../posts.d" ++ rest)) :=
  (tokens_body_iff (valid_folderSettings "db") (by simp [apartTables]) (by decide)).2 (by decide)

/-- The table of a module whose name holds a quote. -/
def quotedTable : Table :=
  ⟨"a", ⟨.slash, ["r", "it's.ts"]⟩, ""⟩

theorem tokens_body_ne_quoted :
    isWordText quotedTable.symbol.toList = true ∧ quotedTable.module.isAbsolute = true
      ∧ '\n' ∉ quotedTable.module.text.toList
      ∧ ¬ ∃ inner rest, (tokens (body (folderSettings "db")
          ([quotedTable].map (Table.resolve [] [] ⟨.slash, ["r"]⟩)))).map Token.content
        = (groups ([quotedTable].map (Table.resolve [] [] ⟨.slash, ["r"]⟩))).flatMap importRow
          ++ (inner
            ++ ((specifiers ([quotedTable].map (Table.resolve [] [] ⟨.slash, ["r"]⟩))).flatMap exportRow
              ++ rest)) := by
  refine ⟨by decide, by decide, by decide, ?_⟩
  rintro ⟨inner, rest, h⟩
  exact absurd (quotes_not_mem (x := "./it's") (by decide) (by decide) h).1 (by decide)

end Layout

end TableRoster
