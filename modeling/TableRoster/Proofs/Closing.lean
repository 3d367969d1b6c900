import TableRoster.Proofs.ReadBack
import TableRoster.Proofs.Source.TopLevel

/-! # The body of an aggregate module ends a statement

Every section of a body is read by itself up to its last semicolon, with every bracket closed. So is the
body, as far as its specifiers can be quoted. -/

namespace TableRoster.Layout

open Source Text

variable {s : Settings} {ts : List Table} {name spec x y sep e : String} {symbols xs : List String}

/-! ## Texts that end with a semicolon -/

/-- A text with a semicolon at the end of its last line, and a flat row of tokens in front of it. -/
def Settles (x : String) : Prop :=
  ∃ m, x.toList = m ++ [';', '\n'] ∧ Makes Flat m

theorem flat_semicolon : Closed Flat [';'] := fun rd =>
  ⟨_, _, fun w => .semicolon (markAt?_single (by decide) (by decide) w), flat_single rfl rfl⟩

theorem settles_of_flat {m : List Char} (hm : Makes Flat m) (hx : x.toList = m ++ [';', '\n']) :
    Settles x :=
  ⟨m, hx, hm⟩

theorem Settles.after (hx : Closed Flat x.toList) (hy : Settles y) : Settles (x ++ y) := by
  obtain ⟨m, hm, hflat⟩ := hy
  exact ⟨x.toList ++ m, by simp [hm], hx.append hflat⟩

theorem Settles.append (hx : Settles x) (hy : Settles y) : Settles (x ++ y) := by
  obtain ⟨m, hm, hflat⟩ := hx
  obtain ⟨n, hn, hflat'⟩ := hy
  exact ⟨m ++ ([';'] ++ (['\n'] ++ n)), by simp [hm, hn],
    hflat.append (flat_semicolon.append (flat_lineBreak.append hflat')) rfl⟩

/-- Texts that settle, with a line break between them and what else may stand there. -/
theorem settles_joined (he : Closed Flat e.toList) (hne : xs ≠ [])
    (h : ∀ x ∈ xs, Settles (x ++ "\n")) : Settles (("\n" ++ e).intercalate xs ++ "\n") := by
  induction xs with
  | nil => exact absurd rfl hne
  | cons x xs ih =>
    obtain ⟨hx, hxs⟩ := List.forall_mem_cons.1 h
    by_cases hnil : xs = []
    · simpa [hnil] using hx
    have hall := hx.append ((ih hnil hxs).after he)
    rw [String.intercalate_cons_of_ne_nil hnil]
    simpa only [String.append_assoc] using hall

/-- A text that ends with a semicolon ends a statement where its line ends. -/
theorem Settles.endsStatement (h : Settles x) : EndsStatement x := by
  obtain ⟨m, hm, hflat⟩ := h
  obtain ⟨ts, rd, hr, hts⟩ := hflat .start
  have hread := hr [';', '\n'] rfl
  have htokens : tokens x = ts ++ [rd.tokenOf .mark [';'],
      (rd.advance (.token .mark) [';']).tokenOf .lineBreak ['\n']] := by
    have hend : lex rd [';', '\n'] = _ := (Reads.lineEnd (w := [])).lex_append
    rw [lex, List.append_nil] at hend
    rw [tokens, hm, hread.lex_append, hend]
  have hoffset : rd.offset + 2 = x.length := by
    rw [hread.offset, ← String.length_toList, hm]
    simp [Reader.start]
  refine ⟨⟨String.ofList m, ?_⟩, ⟨ts, _, _, htokens, rfl, rfl, hoffset, ?_⟩, ?_⟩
  · rw [← String.toList_inj, hm]
    simp
  · rw [← List.nil_append ts]
    exact depthOf_append hts.balanced
  · rw [htokens, List.forall_mem_append]
    exact ⟨hts.no_angle, by simp [Reader.tokenOf, Token.isMarkOf]⟩

/-! ## Sections -/

theorem flat_spaced {c : Char} (hc : c ∈ ['=', '*']) : Closed Flat [c, ' '] := by
  refine closed_spacedMark hc fun t hk ht => ?_
  simp only [List.mem_cons, List.not_mem_nil, or_false] at hc
  obtain rfl | rfl := hc
  · exact flat_of_mark hk (ht ▸ by simp)
  · exact flat_of_mark hk (ht ▸ by simp)

theorem settles_importLine {g : String × List String} (hspec : Quotable g.1.toList)
    (hnames : ∀ n ∈ g.2, isWordText n.toList = true) : Settles (importLine g ++ "\n") := by
  have hrow : Makes Flat ([',', ' '].intercalate (g.2.map String.toList)) :=
    flat_row (by simpa using fun n hn => flat_word (hnames n hn))
  have hgroup := closed_group (o := '\x7b') (c := '\x7d') (by decide) (by decide)
    (closed_space.append (hrow.append closed_space.makes rfl))
  have hfrom := (flat_word (x := "from".toList) (by decide)).append
    (closed_space.append (flat_string (q := '\x27') hspec (by decide)).makes) rfl
  have hall := (flat_word (x := "import".toList) (by decide)).append
    (closed_space.append (hgroup.append (closed_space.append hfrom))) rfl
  exact settles_of_flat hall (by simp [importLine])

theorem settles_reexportLine (hspec : Quotable spec.toList) : Settles (reexportLine spec ++ "\n") := by
  have hfrom := (flat_word (x := "from".toList) (by decide)).append
    (closed_space.append (flat_string (q := '\x22') hspec (by decide)).makes) rfl
  have hall := (flat_word (x := "export".toList) (by decide)).append
    (closed_space.append ((flat_spaced (c := '*') (by decide)).append hfrom)) rfl
  refine settles_of_flat hall ?_
  delta reexportLine
  simp

/-- A line that binds a name. -/
theorem settles_line {l : Line} (hk : isWordText l.keyword.toList = true)
    (hn : isWordText l.name.toList = true) (hi : Makes Flat l.initializer.toList) :
    Settles (l.text ++ ";\n") := by
  have hbinding := (flat_word hk).append (closed_space.append ((flat_word hn).append
    (closed_space.append ((flat_spaced (c := '=') (by decide)).append hi)) rfl)) rfl
  cases hx : l.exported with
  | false => exact settles_of_flat hbinding (by simp [Line.toList_text, Line.opening, hx])
  | true =>
    have hexported := (flat_word (x := "export".toList) (by decide)).append
      (closed_space.append hbinding) rfl
    exact settles_of_flat hexported (by simp [Line.toList_text, Line.opening, hx])

/-- A type that is that of a value, or of a part of it. -/
theorem settles_typeLine {type value part : String} (ht : isWordText type.toList = true)
    (hv : isWordText value.toList = true) (hp : Makes Flat part.toList) (ha : Apart part.toList) :
    Settles ("export type " ++ type ++ " = typeof " ++ value ++ part ++ ";\n") := by
  have hvalue := (flat_word (x := "typeof".toList) (by decide)).append
    (closed_space.append ((flat_word hv).append hp ha)) rfl
  have htype := (flat_word ht).append
    (closed_space.append ((flat_spaced (c := '=') (by decide)).append hvalue)) rfl
  have hall := (flat_word (x := "export".toList) (by decide)).append (closed_space.append
    ((flat_word (x := "type".toList) (by decide)).append (closed_space.append htype) rfl)) rfl
  exact settles_of_flat hall (by simp)

theorem settles_commented {text a : String} (ha : Settles a) (h : '/' ∉ text.toList) :
    Settles ("/**\n * " ++ text ++ "\n */\n" ++ a) :=
  .after (closed_docComment h flat_of_break) ha

theorem settles_rows {rows : List String} (hne : rows ≠ []) (h : ∀ r ∈ rows, Settles (r ++ "\n")) :
    Settles ("\n".intercalate rows ++ "\n") := by
  have hnone : Closed Flat "".toList := fun rd => ⟨[], rd, fun _ => .nil, Joins.nil⟩
  simpa using settles_joined hnone hne h

theorem settles_imports (hne : ts ≠ [])
    (hts : ∀ t ∈ ts, isWordText t.symbol.toList = true ∧ Quotable t.specifier.toList) :
    Settles (imports ts ++ "\n") := by
  refine settles_rows (by simpa [groups] using specifiers_ne_nil hne) fun r hr => ?_
  simp only [List.mem_map, groups, specifiers, mem_firstSeen] at hr
  obtain ⟨_, ⟨_, ⟨t, ht, rfl⟩, rfl⟩, rfl⟩ := hr
  refine settles_importLine (hts t ht).2 fun n hn => ?_
  obtain ⟨t', ht', rfl⟩ := List.mem_map.1 hn
  exact (hts t' (List.mem_of_mem_filter ht')).1

theorem settles_reexports (hne : ts ≠ []) (hts : ∀ t ∈ ts, Quotable t.specifier.toList) :
    Settles (reexports ts ++ "\n") := by
  have hcomment : Closed Flat "// Re-export every scanned schema module\n".toList := by
    have hline := closed_lineComment (s := " Re-export every scanned schema module".toList) (by decide)
      flat_of_break
    simpa using hline
  have hrows : Settles ("\n".intercalate ((specifiers ts).map reexportLine) ++ "\n") := by
    refine settles_rows (by simpa using specifiers_ne_nil hne) fun r hr => ?_
    simp only [List.mem_map, specifiers, mem_firstSeen] at hr
    obtain ⟨_, ⟨t, ht, rfl⟩, rfl⟩ := hr
    exact settles_reexportLine (hts t ht)
  have hall := hrows.after hcomment
  unfold reexports
  rwa [String.append_assoc]

theorem settles_aggregate (hname : isWordText name.toList = true)
    (hts : ∀ t ∈ ts, isWordText t.symbol.toList = true) (hne : ts ≠ []) :
    Settles (aggregate name ts ++ "\n") := by
  have hmembers : Makes Flat (membersText (ts.map (·.symbol))).toList := by
    rw [toList_membersText]
    exact (closed_group (o := '\x7b') (c := '\x7d') (by decide) (by decide)
      (flat_members (by simpa using hts))).makes
  have hkeyword : isWordText (aggregateLine name (ts.map (·.symbol))).keyword.toList = true := by
    simp only [aggregateLine]
    decide
  rw [aggregate_text name hne]
  exact settles_line hkeyword hname hmembers

theorem settles_names (hts : ∀ t ∈ ts, isWordText t.symbol.toList = true) :
    Settles (namesSection ts ++ "\n") := by
  have hnames : Makes Flat (namesText (ts.map (·.symbol))).toList := by
    have hgroup := closed_group (o := '[') (c := ']') (by decide) (by decide)
      (flat_names (List.forall_mem_map.2 hts))
    have hwords := (flat_word (x := "as".toList) (by decide)).append
      (closed_space.append (flat_word (x := "const".toList) (by decide))) rfl
    rw [toList_namesText]
    exact hgroup.append (closed_space.append hwords)
  have hkeyword : isWordText (namesLine (ts.map (·.symbol))).keyword.toList = true := by
    simp only [namesLine]
    decide
  have hname : isWordText (namesLine (ts.map (·.symbol))).name.toList = true := by
    simp only [namesLine]
    decide
  rw [namesSection_text]
  exact settles_commented (settles_line hkeyword hname hnames) (by decide)

theorem settles_type (h : Settings.isAggregateName name.toList = true) :
    Settles (typeSection name ++ "\n") := by
  obtain ⟨hname, htype⟩ := isWordText_names h
  rw [typeSection_text]
  exact settles_commented (settles_typeLine htype hname makes_nil rfl) (by decide)

theorem settles_nameType : Settles (nameTypeSection ++ "\n") := by
  have hpart : Makes Flat "[number]".toList :=
    (closed_group (s := "number".toList) (by decide) (by decide) (flat_word (by decide))).makes
  rw [nameTypeSection_text]
  exact settles_commented (settles_typeLine (by decide) (by decide) hpart rfl) (by decide)

/-! ## The body -/

/-- The body of a module of tables whose specifiers can be quoted ends a statement. -/
theorem endsStatement_body (hs : s.Valid) (hne : ts ≠ [])
    (hts : ∀ t ∈ ts, isWordText t.symbol.toList = true ∧ Quotable t.specifier.toList) :
    EndsStatement (body s ts) := by
  have hsymbols : ∀ t ∈ ts, isWordText t.symbol.toList = true := fun t ht => (hts t ht).1
  have hsections : ∀ x ∈ sections s ts, Settles (x ++ "\n") := by
    simp only [sections, List.forall_mem_append, List.forall_mem_cons]
    refine ⟨⟨⟨settles_imports hne hts,
      settles_aggregate (isWordText_names hs.aggregate_ok).1 hsymbols hne,
      settles_reexports hne fun t ht => (hts t ht).2, List.forall_mem_nil _⟩, ?_⟩, ?_⟩
    · split
      · exact List.forall_mem_singleton.2 (settles_type hs.aggregate_ok)
      · exact List.forall_mem_nil _
    · split
      · simp only [List.forall_mem_cons]
        exact ⟨settles_names hsymbols, settles_nameType, List.forall_mem_nil _⟩
      · exact List.forall_mem_nil _
  exact (settles_joined (e := "\n") flat_lineBreak (by simp [sections]) hsections).endsStatement

end TableRoster.Layout
