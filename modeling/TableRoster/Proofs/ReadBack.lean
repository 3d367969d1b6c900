import TableRoster.Extraction
import TableRoster.Proofs.Layout
import TableRoster.Proofs.Source.Passed

/-! # What the aggregate module declares

The aggregate module is read back as the binding of the aggregate and, if asked for, that of the
names of all tables. All else in it binds nothing. -/

namespace TableRoster.Layout

open Source Text

variable {s : Settings} {ts : List Table} {name spec : String} {symbols : List String}

/-! ## Names -/

/-- A letter without an accent, `_` or `$` starts a word, and so does its upper case. -/
theorem isWordText_upper {c : Char} (h : (c.isAlpha || c == '_' || c == '$') = true) :
    startsWord c = true ∧ isWordText (upper c) = true := by
  have hall : ∀ n < 128, (let c := Char.ofNat n
      (c.isAlpha || c == '_' || c == '$') = true →
        startsWord c = true ∧ startsWord c.toUpper = true) := by
    decide
  have hc := hall c.toNat (toNat_lt_of_startsName h)
  rw [Char.ofNat_toNat] at hc
  rw [upper_of_startsName h]
  simpa [isWordText] using hc h

theorem isWordText_append {x r : List Char} (hx : isWordText x = true)
    (hr : ∀ d ∈ r, continuesWord d = true) : isWordText (x ++ r) = true := by
  cases x with
  | nil => cases hx
  | cons c x =>
      simp only [isWordText, Bool.and_eq_true, List.all_eq_true, List.cons_append] at hx ⊢
      exact ⟨hx.1, List.forall_mem_append.2 ⟨hx.2, hr⟩⟩

/-- A name for the aggregate is a word, and so is the name of its type. -/
theorem isWordText_names (h : Settings.isAggregateName name.toList = true) :
    isWordText name.toList = true ∧ isWordText (typeName name).toList = true := by
  unfold typeName
  revert h
  cases name.toList with
  | nil => simp [Settings.isAggregateName]
  | cons c r =>
      intro h
      simp only [Settings.isAggregateName, Bool.and_eq_true, List.all_eq_true] at h
      obtain ⟨hc, hr⟩ := h
      obtain ⟨hstart, hupper⟩ := isWordText_upper hc
      have hrest : ∀ d ∈ r, continuesWord d = true := fun d hd => by
        simpa [continuesWord, or_comm] using hr d hd
      have hfirst : isWordText [c] = true := by simpa [isWordText] using hstart
      exact ⟨isWordText_append hfirst hrest, by simpa using isWordText_append hupper hrest⟩

/-! ## Rows of names -/

theorem flat_word {x : List Char} (hx : isWordText x = true) : Makes Flat x :=
  makes_word hx fun _ hk _ => flat_single ((Token.calm_of_word hk).nest? 0) (Token.isMarkOf_of_word hk _)

theorem quotable_of_isWordText {x : List Char} (hx : isWordText x = true) : Quotable x := by
  have hmarks : ∀ c ∈ ['\x27', '\x22', '\\', '\n'], continuesWord c = false := by
    simp only [List.forall_mem_cons]
    exact ⟨by decide, by decide, by decide, by decide, nofun⟩
  exact fun c hc hmem => not_mem_of_isWordText hx (hmarks c hmem) hc

theorem flat_of_mark {t : Token} (hk : t.kind = .mark)
    (ht : t.text ∉ ["(", "[", "\x7b", ")", "]", "\x7d", "<"]) : Flat [t] := by
  simp only [List.mem_cons, List.not_mem_nil, or_false, not_or] at ht
  exact flat_single (by simp [Token.nest?, Token.opens, Token.closes, Token.isMarkOf, hk, ht])
    (by simp [Token.isMarkOf, ht])

theorem flat_string {q : Char} {x : List Char} (hx : Quotable x) (hq : q ∈ ['\x27', '\x22']) :
    Closed Flat (q :: (x ++ [q])) := closed_string hx hq fun t hk _ =>
  flat_single ((Token.calm_of_kind (by simp [hk]) (by simp [hk])).nest? 0) (by simp [Token.isMarkOf, hk])

theorem flat_comma : Closed Flat [','] :=
  closed_mark (by decide) fun _ hk ht => flat_of_mark hk (ht ▸ by simp)

theorem flat_of_break (t : Token) (h : t.isBreak = true) : Flat [t] := by
  have hk : t.kind = .lineBreak := by simpa [Token.isBreak] using h
  exact flat_single (Token.nest?_of_isBreak h 0) (by simp [Token.isMarkOf, hk])

theorem flat_lineBreak : Closed Flat ['\n'] := closed_lineBreak flat_of_break

/-- Texts in a row, with a comma and a blank between them. -/
theorem flat_row {xs : List (List Char)} (h : ∀ x ∈ xs, Makes Flat x) :
    Makes Flat ([',', ' '].intercalate xs) :=
  Makes.intercalate (fun hx => flat_comma.append (closed_space.append hx)) (fun _ => rfl) h

/-! ## Rows that bind nothing -/

theorem carries_importLine {g : String × List String} (hspec : Quotable g.1.toList)
    (hnames : ∀ n ∈ g.2, isWordText n.toList = true) : Carries (importLine g ++ "\n") [] := by
  have hrow : Makes Flat ([',', ' '].intercalate (g.2.map String.toList)) :=
    flat_row (by simpa using fun n hn => flat_word (hnames n hn))
  have hgroup := passing_group (o := '\x7b') (c := '\x7d') (by decide) (by decide)
    (closed_space.append (hrow.append closed_space.makes rfl))
  have hfrom := (passing_word (x := "from".toList) (by decide) (by decide)).append
    (closed_space.append (passing_string (q := '\x27') hspec (by decide)).makes) rfl
  have hall := (passing_word (x := "import".toList) (by decide) (by decide)).append
    (closed_space.append (hgroup.append (closed_space.append hfrom))) rfl
  exact hall.carries (by simp [importLine])

theorem carries_reexportLine (hspec : Quotable spec.toList) :
    Carries (reexportLine spec ++ "\n") [] := by
  have hfrom := (passing_word (x := "from".toList) (by decide) (by decide)).append
    (closed_space.append (passing_string (q := '\x22') hspec (by decide)).makes) rfl
  refine (passing_exportAll.append hfrom).carries ?_
  delta reexportLine
  simp

/-- A type that is that of a value, or of a part of it. -/
theorem carries_typeLine {type value part : String} (ht : isWordText type.toList = true)
    (hv : isWordText value.toList = true) (hp : Makes Passing part.toList) (ha : Apart part.toList) :
    Carries ("export type " ++ type ++ " = typeof " ++ value ++ part ++ ";\n") [] := by
  have hvalue := (passing_words (x := "typeof".toList) (by decide) (by decide) hv).append hp ha
  have hall := (passing_exportType ht).append
    (closed_space.append (passing_equals.append hvalue)) rfl
  exact hall.carries (by simp)

/-- A comment over several lines. -/
theorem closed_docComment {Q : List Token → Prop} [Joins Q] {text : String} (h : '/' ∉ text.toList)
    (hb : ∀ t : Token, t.isBreak = true → Q [t]) :
    Closed Q ("/**\n * " ++ text ++ "\n */\n").toList := by
  have hslash : '/' ∉ "*\n * ".toList ++ (text.toList ++ "\n ".toList) := by
    simpa using h
  have hs : ¬ ['*', '/'] <:+: "*\n * ".toList ++ (text.toList ++ "\n ".toList) :=
    fun hclosed => hslash (hclosed.subset (by simp))
  have hcomment := (closed_comment hs hb).append_closed (closed_lineBreak hb)
  simpa using hcomment

theorem carries_comment {text : String} (h : '/' ∉ text.toList) :
    Carries ("/**\n * " ++ text ++ "\n */\n") [] :=
  (closed_docComment h passedLines_break).carries rfl

theorem carries_commented {text a : String} {ls : List Line} (ha : Carries a ls)
    (h : '/' ∉ text.toList) : Carries ("/**\n * " ++ text ++ "\n */\n" ++ a) ls :=
  (carries_comment h).append ha

/-! ## Lines -/

/-- The text of the aggregate: a line for each table, between braces. -/
def membersText (symbols : List String) : String :=
  "\n".intercalate ("\x7b" :: symbols.map memberLine ++ ["\x7d"])

/-- The text of the names of all tables. -/
def namesText (symbols : List String) : String :=
  "[" ++ ", ".intercalate (symbols.map fun n => "'" ++ n ++ "'") ++ "] as const"

theorem toList_membersText (symbols : List String) : (membersText symbols).toList
    = '\x7b' :: (symbols.flatMap (fun n => '\n' :: (memberLine n).toList) ++ ['\n'] ++ ['\x7d']) := by
  rw [membersText, String.toList_intercalate]
  simp [intercalate_cons, List.flatMap_map]

theorem flat_members (h : ∀ n ∈ symbols, isWordText n.toList = true) :
    Makes Flat (symbols.flatMap (fun n => '\n' :: (memberLine n).toList) ++ ['\n']) := by
  have hline : ∀ n ∈ symbols, Makes Flat ('\n' :: (memberLine n).toList) := by
    intro n hn
    have hname := (flat_word (h n hn)).append flat_comma.makes rfl
    have hall := flat_lineBreak.append (closed_space.append (closed_space.append hname))
    simpa [memberLine] using hall
  exact (Makes.flatMap hline fun _ _ => rfl).1.append flat_lineBreak.makes rfl

theorem complete_membersText (h : ∀ n ∈ symbols, isWordText n.toList = true) :
    Complete (membersText symbols) :=
  (flat_members h).complete_group (by decide) (by decide) (toList_membersText symbols)

theorem toList_namesText (symbols : List String) : (namesText symbols).toList
    = ('[' :: ([',', ' '].intercalate (symbols.map fun n => '\x27' :: (n.toList ++ ['\x27'])) ++ [']']))
      ++ ' ' :: ("as".toList ++ ' ' :: "const".toList) := by
  simp [namesText, Function.comp_def]

theorem flat_names (h : ∀ n ∈ symbols, isWordText n.toList = true) :
    Makes Flat ([',', ' '].intercalate (symbols.map fun n => '\x27' :: (n.toList ++ ['\x27']))) :=
  flat_row (by simpa using fun n hn => (flat_string (quotable_of_isWordText (h n hn)) (by decide)).makes)

theorem complete_namesText (h : ∀ n ∈ symbols, isWordText n.toList = true) :
    Complete (namesText symbols) :=
  (flat_names h).complete_group_words (by decide) (by decide) (by decide) (by decide)
    (toList_namesText symbols)

/-- The line that binds the aggregate. -/
def aggregateLine (name : String) (symbols : List String) : Line :=
  ⟨true, "const", name, membersText symbols⟩

/-- The line that binds the names of all tables. -/
def namesLine (symbols : List String) : Line :=
  ⟨true, "const", "tableNames", namesText symbols⟩

theorem aggregate_text (name : String) (hne : ts ≠ []) :
    aggregate name ts ++ "\n" = (aggregateLine name (ts.map (·.symbol))).text ++ ";\n" := by
  have hrows : (ts.map (·.symbol)).map memberLine ≠ [] := by simpa using hne
  rw [Line.text, aggregateLine, membersText, String.intercalate_append_of_ne_nil (by simp) (by simp),
    String.intercalate_cons_of_ne_nil hrows, String.intercalate_singleton, List.map_map]
  delta aggregate
  simp [← String.toList_inj, memberLine, Function.comp_def]

theorem carries_aggregate (hname : isWordText name.toList = true) (hne : name ≠ "enum")
    (hts : ∀ t ∈ ts, isWordText t.symbol.toList = true) (hts' : ts ≠ []) :
    Carries (aggregate name ts ++ "\n") [aggregateLine name (ts.map (·.symbol))] := by
  have hvalid : (aggregateLine name (ts.map (·.symbol))).Valid :=
    ⟨by simp [aggregateLine, bindingKeywords], hname, hne, complete_membersText (by simpa using hts)⟩
  rw [aggregate_text name hts']
  exact hvalid.carries

theorem namesSection_text (ts : List Table) : namesSection ts ++ "\n"
    = "/**\n * " ++ "Names of all tables" ++ "\n */\n"
      ++ ((namesLine (ts.map (·.symbol))).text ++ ";\n") := by
  have hopening : "/**\n * Names of all tables\n */\nexport const tableNames = ["
      = "/**\n * " ++ "Names of all tables" ++ "\n */\n"
        ++ ("export " ++ "const" ++ " " ++ "tableNames" ++ " = " ++ "[") := by simp
  have hclosing : "] as const;" ++ "\n" = "] as const" ++ ";\n" := by simp
  unfold namesSection namesLine namesText Line.text
  rw [hopening, List.map_map]
  simp only [String.append_assoc, hclosing, if_true, Function.comp_def]

theorem typeSection_text (name : String) : typeSection name ++ "\n"
    = "/**\n * " ++ "Database schema type" ++ "\n */\n"
      ++ ("export type " ++ typeName name ++ " = typeof " ++ name ++ "" ++ ";\n") := by
  have hopening : "/**\n * Database schema type\n */\nexport type "
      = "/**\n * " ++ "Database schema type" ++ "\n */\n" ++ "export type " := by simp
  have hclosing : ";" ++ "\n" = "" ++ ";\n" := by decide
  unfold typeSection
  rw [hopening]
  simp only [String.append_assoc, hclosing]

theorem nameTypeSection_text : nameTypeSection ++ "\n"
    = "/**\n * " ++ "Table name type" ++ "\n */\n"
      ++ ("export type " ++ "TableName" ++ " = typeof " ++ "tableNames" ++ "[number]" ++ ";\n") := by
  simp [nameTypeSection]

theorem carries_names (hts : ∀ t ∈ ts, isWordText t.symbol.toList = true) :
    Carries (namesSection ts ++ "\n") [namesLine (ts.map (·.symbol))] := by
  have hvalid : (namesLine (ts.map (·.symbol))).Valid :=
    ⟨by simp [namesLine, bindingKeywords], by simp only [namesLine]; decide, by simp [namesLine],
      complete_namesText (by simpa using hts)⟩
  rw [namesSection_text]
  exact carries_commented hvalid.carries (by decide)

theorem carries_type (h : Settings.isAggregateName name.toList = true) :
    Carries (typeSection name ++ "\n") [] := by
  obtain ⟨hname, htype⟩ := isWordText_names h
  have hrow : Carries ("export type " ++ typeName name ++ " = typeof " ++ name ++ "" ++ ";\n") [] :=
    carries_typeLine htype hname makes_nil rfl
  rw [typeSection_text]
  exact carries_commented hrow (by decide)

theorem carries_nameType : Carries (nameTypeSection ++ "\n") [] := by
  have hpart : Makes Passing "[number]".toList :=
    (passing_group (x := "number".toList) (by decide) (by decide) (flat_word (by decide))).makes
  have hrow : Carries
      ("export type " ++ "TableName" ++ " = typeof " ++ "tableNames" ++ "[number]" ++ ";\n") [] :=
    carries_typeLine (by decide) (by decide) hpart rfl
  rw [nameTypeSection_text]
  exact carries_commented hrow (by decide)

/-! ## The whole module -/

/-- Texts that carry lines, with a line break between them and what else may stand there. -/
theorem carries_joined {e : String} (he : Carries e []) {as : List String} {lss : List (List Line)}
    (h : List.Forall₂ (fun a ls => Carries (a ++ "\n") ls) as lss) :
    Carries (("\n" ++ e).intercalate as ++ "\n") lss.flatten := by
  induction h with
  | nil => exact carries_lineBreak
  | @cons a ls as lss ha has ih =>
      cases as with
      | nil =>
          cases has
          simpa using ha
      | cons b bs =>
          have hall := ha.append (he.append ih)
          simpa [String.intercalate_cons_cons, String.append_assoc] using hall

theorem carries_rows {rows : List String} (h : ∀ r ∈ rows, Carries (r ++ "\n") []) :
    Carries ("\n".intercalate rows ++ "\n") [] := by
  have hnone : Carries "" [] :=
    Closed.carries (s := []) (fun rd => ⟨[], rd, fun _ => .nil, Joins.nil⟩) rfl
  have hrows : List.Forall₂ (fun a ls => Carries (a ++ "\n") ls) rows (rows.map fun _ => []) :=
    List.forall₂_map_right_iff.2 (List.forall₂_same.2 h)
  have hflatten : (rows.map fun _ => ([] : List Line)).flatten = [] := by simp
  simpa [hflatten] using carries_joined hnone hrows

theorem carries_imports
    (hts : ∀ t ∈ ts, isWordText t.symbol.toList = true ∧ Quotable t.specifier.toList) :
    Carries (imports ts ++ "\n") [] := by
  refine carries_rows fun r hr => ?_
  simp only [List.mem_map, groups, specifiers, mem_firstSeen] at hr
  obtain ⟨_, ⟨_, ⟨t, ht, rfl⟩, rfl⟩, rfl⟩ := hr
  refine carries_importLine (hts t ht).2 fun n hn => ?_
  obtain ⟨t', ht', rfl⟩ := List.mem_map.1 hn
  exact (hts t' (List.mem_of_mem_filter ht')).1

theorem carries_reexports (hts : ∀ t ∈ ts, Quotable t.specifier.toList) :
    Carries (reexports ts ++ "\n") [] := by
  have hcomment : Carries "// Re-export every scanned schema module\n" [] :=
    (closed_lineComment (s := " Re-export every scanned schema module".toList) (by decide)
      passedLines_break).carries (by decide)
  have hrows : Carries ("\n".intercalate ((specifiers ts).map reexportLine) ++ "\n") [] := by
    refine carries_rows fun r hr => ?_
    simp only [List.mem_map, specifiers, mem_firstSeen] at hr
    obtain ⟨_, ⟨t, ht, rfl⟩, rfl⟩ := hr
    exact carries_reexportLine (hts t ht)
  have hall := hcomment.append hrows
  unfold reexports
  rwa [String.append_assoc]

theorem carries_header (time : Timestamp) : Carries (header time) [] := by
  have hopening : opening = "/**\n * " ++ ("Auto-generated database schema aggregate.\n"
      ++ " * Do not edit this file by hand; run `schemagen generate` to regenerate.") :=
    rfl
  have hslash : '/' ∉ ("Auto-generated database schema aggregate.\n"
      ++ " * Do not edit this file by hand; run `schemagen generate` to regenerate."
      ++ ("\n" ++ stampLine time)).toList := by
    rw [String.toList_append, List.mem_append, not_or, String.toList_append, String.toList_ofList,
      String.toList_ofList]
    exact ⟨by decide, by simpa using Drift.slash_not_mem_stampLine time⟩
  have hall := carries_comment hslash
  unfold header
  rw [hopening]
  simpa only [String.append_assoc] using hall

theorem carries_sections (hs : s.Valid) (hname : s.aggregateName ≠ "enum") (hne : ts ≠ [])
    (hts : ∀ t ∈ ts, isWordText t.symbol.toList = true ∧ Quotable t.specifier.toList) :
    Carries ("\n\n".intercalate (sections s ts) ++ "\n")
      (aggregateLine s.aggregateName (ts.map (·.symbol))
        :: if s.emitNames then [namesLine (ts.map (·.symbol))] else []) := by
  have hsymbols : ∀ t ∈ ts, isWordText t.symbol.toList = true := fun t ht => (hts t ht).1
  have hmain : List.Forall₂ (fun a ls => Carries (a ++ "\n") ls)
      [imports ts, aggregate s.aggregateName ts, reexports ts]
      [[], [aggregateLine s.aggregateName (ts.map (·.symbol))], []] :=
    .cons (carries_imports hts) (.cons
      (carries_aggregate (isWordText_names hs.aggregate_ok).1 hname hsymbols hne)
      (.cons (carries_reexports fun t ht => (hts t ht).2) .nil))
  have htypes : List.Forall₂ (fun a ls => Carries (a ++ "\n") ls)
      (if s.emitTypes then [typeSection s.aggregateName] else [])
      (if s.emitTypes then [[]] else []) := by
    split
    · exact .cons (carries_type hs.aggregate_ok) .nil
    · exact .nil
  have hnames : List.Forall₂ (fun a ls => Carries (a ++ "\n") ls)
      (if s.emitNames then [namesSection ts, nameTypeSection] else [])
      (if s.emitNames then [[namesLine (ts.map (·.symbol))], []] else []) := by
    split
    · exact .cons (carries_names hsymbols) (.cons carries_nameType .nil)
    · exact .nil
  have hlines : ∀ a n : Line, (a :: if s.emitNames then [n] else [])
      = ([[], [a], []] ++ (if s.emitTypes then [[]] else [])
          ++ if s.emitNames then [[n], []] else []).flatten := by
    intro a n
    cases s.emitTypes <;> cases s.emitNames <;> rfl
  rw [hlines]
  exact carries_joined carries_lineBreak (List.rel_append (List.rel_append hmain htypes) hnames)

/-! ## No table is read -/

theorem no_call_in_texts (h : ∀ n ∈ symbols, isWordText n.toList = true) :
    '(' ∉ (membersText symbols).toList ∧ '(' ∉ (namesText symbols).toList := by
  have hnames : ∀ n ∈ symbols, '(' ∉ n.toList := fun n hn =>
    not_mem_of_isWordText (h n hn) (by decide)
  have hmembers : ∀ l ∈ "\x7b" :: symbols.map memberLine ++ ["\x7d"], '(' ∉ l.toList := by
    simpa [memberLine, or_imp, forall_and] using hnames
  have hquoted : ∀ q ∈ symbols.map fun n => "'" ++ n ++ "'", '(' ∉ q.toList := by
    simpa using hnames
  have hrow : '(' ∉ (", ".intercalate (symbols.map fun n => "'" ++ n ++ "'")).toList :=
    not_mem_intercalate (by decide) hquoted
  refine ⟨not_mem_intercalate (by decide) hmembers, ?_⟩
  rw [namesText, String.toList_append, String.toList_append, List.mem_append, List.mem_append, not_or,
    not_or]
  exact ⟨⟨by decide, hrow⟩, by decide⟩

end TableRoster.Layout

namespace TableRoster.Extraction

open Source Text

variable {s : Settings} {d : Declaration} {ds : List Declaration}

theorem not_occursIn {c : Char} {needle hay : List Char} (hc : c ∈ needle) (hh : c ∉ hay) :
    occursIn needle hay = false := by
  rw [Bool.eq_false_iff, Ne, occursIn_iff]
  exact fun h => hh (h.subset hc)

/-- Where no declaration is a candidate, no table is found and nothing is told. -/
theorem tables_of_no_candidate (h : ∀ d ∈ ds, isCandidate s d = false) (file : Path) :
    tables s file ds = pure [] := by
  induction ds with
  | nil => rfl
  | cons d ds ih =>
      obtain ⟨hd, hds⟩ := List.forall_mem_cons.1 h
      have htable : table? s file d = pure none := by simp [table?, hd]
      rw [tables, htable, ih hds]
      rfl

/-- Lines whose initializers lack a character of the marker are no tables. -/
theorem tables_of_carries {text : String} {ls : List Line} (h : Carries text ls) {c : Char}
    (hc : c ∈ s.marker.toList) (hls : ∀ l ∈ ls, c ∉ l.initializer.toList) (file : Path) :
    tables s file (declarations text) = pure [] := by
  refine tables_of_no_candidate (fun d hd => ?_) file
  have hmem : d.printed ∈ ls.map Line.printed := h.declarations ▸ List.mem_map_of_mem hd
  obtain ⟨l, hl, heq⟩ := List.mem_map.1 hmem
  have hinit : d.initializer = some l.initializer := (congrArg (·.2.2.1) heq).symm
  simp [isCandidate, hinit, not_occursIn hc (hls l hl)]

end TableRoster.Extraction

namespace TableRoster.Aggregate

open Source Layout

/-- What is emitted is read back as the aggregate and, if asked for, the names of all tables, and as
nothing else. So no table is read from it, whatever settings it is read with, if their marker has a
bracket. -/
theorem declarations_text {s : Settings} {ts : List Table} {time : Timestamp} {a : Aggregate}
    (hs : s.Valid) (hname : s.aggregateName ≠ "enum")
    (hts : ∀ t ∈ ts, isWordText t.symbol.toList = true ∧ Quotable t.specifier.toList)
    (h : (emit s time ts).result = .ok a) :
    (declarations a.text).map Declaration.printed
        = (s.aggregateName, "const", some (membersText (ts.map (·.symbol))), some s.aggregateName)
          :: (if s.emitNames then
              [("tableNames", "const", some (namesText (ts.map (·.symbol))), some "tableNames")]
            else []) ∧
      ∀ (reading : Settings) (file : Path), '(' ∈ reading.marker.toList →
        Extraction.tables reading file (declarations a.text) = pure [] := by
  obtain ⟨hne, rfl⟩ := emitted h
  have hcarries : Carries (Aggregate.text ⟨Layout.body s ts, time, ts⟩)
      (aggregateLine s.aggregateName (ts.map (·.symbol))
        :: if s.emitNames then [namesLine (ts.map (·.symbol))] else []) := by
    have hall := (carries_header time).append
      (carries_lineBreak.append (carries_sections hs hname hne hts))
    rw [Aggregate.text, Layout.body, String.append_assoc]
    exact hall
  obtain ⟨hmembers, hnames⟩ := no_call_in_texts (List.forall_mem_map.2 fun t ht => (hts t ht).1)
  refine ⟨by rw [hcarries.declarations]; cases s.emitNames <;> rfl, fun reading file hmarker => ?_⟩
  refine Extraction.tables_of_carries hcarries hmarker ?_ file
  rw [List.forall_mem_cons]
  refine ⟨hmembers, fun l hl => ?_⟩
  split at hl
  · exact List.mem_singleton.1 hl ▸ hnames
  · cases hl

/-- Two tables, read back with the settings they were found with. -/
theorem declarations_text_two_tables :
    (declarations (folderAggregate "a" ⟨2024, 1, 2, 3, 4, 5, 0, some 0⟩).text).map Declaration.printed
        = [("db", "const", some "\x7b\n  users,\n  posts,\n\x7d", some "db"),
          ("tableNames", "const", some "['users', 'posts'] as const", some "tableNames")] ∧
      Extraction.tables (folderSettings "a") ⟨.slash, ["a", "index.ts"]⟩
        (declarations (folderAggregate "a" ⟨2024, 1, 2, 3, 4, 5, 0, some 0⟩).text) = pure [] := by
  have hts : ∀ t ∈ folderTables "a",
      isWordText t.symbol.toList = true ∧ Quotable t.specifier.toList := by
    simp only [folderTables, List.forall_mem_cons]
    exact ⟨⟨by decide, by simp [Quotable]⟩, ⟨by decide, by simp [Quotable]⟩, by simp⟩
  have h := declarations_text (a := folderAggregate "a" ⟨2024, 1, 2, 3, 4, 5, 0, some 0⟩)
    (valid_folderSettings "a") (by decide) hts rfl
  exact ⟨h.1.trans (by decide +kernel), h.2 _ _ (by decide)⟩

end TableRoster.Aggregate
