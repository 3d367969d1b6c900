import TableRoster.Extraction
import TableRoster.Proofs.Source.Origin

/-! # The symbols of tables

The symbol of a table is the name that its module exports it by. Other modules can import it as it is
written, unless a clause gives that name by a string. -/

namespace TableRoster.Extraction

open Source

variable {s : Settings} {file : Path} {d : Declaration} {ds : List Declaration} {t : Table} {ts : List Table}
  {source : String}

/-- The initializer of a declaration holds the marker. -/
def HoldsMarker (s : Settings) (d : Declaration) : Prop :=
  ∃ text, d.initializer = some text ∧ s.marker.toList <:+: text.toList

theorem isCandidate_iff : isCandidate s d = true ↔ (∃ y, d.exportName = some y) ∧ HoldsMarker s d := by
  rw [isCandidate, Bool.and_eq_true, Option.isSome_iff_exists, HoldsMarker]
  cases d.initializer <;> simp [Text.occursIn_iff]

/-- Only a candidate is a table, under its symbol. -/
theorem table?_eq_some (h : (table? s file d).result = .ok (some t)) :
    isCandidate s d = true ∧ t.symbol = symbolOf d ∧ symbolOf d ≠ "default" := by
  unfold table? at h
  split at h
  · cases h
  · rename_i hc
    dsimp only at h
    split at h
    · cases h
    · rename_i hdefault
      obtain ⟨included, -, h⟩ := Telling.bind_eq_ok h
      refine ⟨by simpa using hc, ?_, hdefault⟩
      cases included with
      | false => cases h
      | true =>
        cases h
        rfl

/-- The tables of a module are candidates among its declarations. -/
theorem exists_of_mem_tables (h : (tables s file ds).result = .ok ts) (ht : t ∈ ts) :
    ∃ d ∈ ds, isCandidate s d = true ∧ t.symbol = symbolOf d ∧ symbolOf d ≠ "default" := by
  induction ds generalizing ts with
  | nil =>
    obtain rfl : [] = ts := Except.ok.inj h
    cases ht
  | cons d ds ih =>
    obtain ⟨found, hfirst, h⟩ := Telling.bind_eq_ok h
    obtain ⟨rest, hrest, h⟩ := Telling.bind_eq_ok h
    obtain rfl : found.toList ++ rest = ts := Except.ok.inj h
    rcases List.mem_append.1 ht with ht | ht
    · obtain rfl := Option.mem_toList.1 ht
      exact ⟨d, List.mem_cons_self, table?_eq_some hfirst⟩
    · obtain ⟨d', hd, hall⟩ := ih hrest ht
      exact ⟨d', List.mem_cons_of_mem _ hd, hall⟩

/-- A table is a declaration with the marker, and its symbol is never `default`. The symbol is a single name
and the one that the module exports, unless a clause gives that name by a string and the name is none. -/
theorem symbol_of_table (h : (tables s file (declarations source)).result = .ok ts) :
    ∀ t ∈ ts, t.symbol ≠ "default" ∧ ∃ d ∈ declarations source, HoldsMarker s d ∧
      (IsName t.symbol ∧ d.exportName = some t.symbol ∨
        ∃ y, d.exportName = some y ∧ ¬ IsName y ∧ QuotedAlias source d.name y ∧
          t.symbol = if y = "" then d.name else y) := by
  intro t ht
  obtain ⟨d, hd, hcandidate, hsymbol, hdefault⟩ := exists_of_mem_tables h ht
  obtain ⟨⟨y, hy⟩, hmarker⟩ := isCandidate_iff.1 hcandidate
  have hy' : t.symbol = if y = "" then d.name else y := by rw [hsymbol, symbolOf, hy]
  refine ⟨hsymbol ▸ hdefault, d, hd, hmarker, ?_⟩
  by_cases hname : IsName y
  · have hne : y ≠ "" := by
      rintro rfl
      exact absurd (isName_iff.1 hname) (by decide)
    rw [if_neg hne] at hy'
    exact .inl (by rw [hy']; exact ⟨hname, hy⟩)
  · have hquoted := (exportName_of_mem_declarations hd hy).resolve_left (mt isName_iff.2 hname)
    exact .inr ⟨y, hy, hname, hquoted, hy'⟩

/-- Settings that include every symbol. -/
def markedSettings : Settings :=
  ⟨⟨.slash, ["r"]⟩, ⟨.slash, ["r", "index.ts"]⟩, [], [".*"], [], true, true, [], "pgTable(", "db", false⟩

/-- A table under the name that a clause gives it by a word. -/
theorem symbol_of_table_users :
    (tables markedSettings ⟨.slash, ["r", "a.ts"]⟩
        (declarations "const t = pgTable(1);\nexport \x7b t as users \x7d;\n")).result
      = .ok [⟨"users", ⟨.slash, ["r", "a.ts"]⟩, ""⟩] ∧
    ∃ d ∈ declarations "const t = pgTable(1);\nexport \x7b t as users \x7d;\n",
      HoldsMarker markedSettings d ∧ IsName "users" ∧ d.exportName = some "users" := by
  have htables : (tables markedSettings ⟨.slash, ["r", "a.ts"]⟩
      (declarations "const t = pgTable(1);\nexport \x7b t as users \x7d;\n")).result
      = .ok [⟨"users", ⟨.slash, ["r", "a.ts"]⟩, ""⟩] := eq_ok_of_toOption (by decide +kernel)
  have hnames : (declarations "const t = pgTable(1);\nexport \x7b t as users \x7d;\n").map
      (·.exportName) = [some "users"] := by decide +kernel
  obtain ⟨-, d, hd, hmarker, hname | ⟨y, hy, hnot, -⟩⟩ :=
    symbol_of_table htables _ (List.mem_singleton_self _)
  · exact ⟨htables, d, hd, hmarker, hname⟩
  · have hexport : d.exportName = some "users" :=
      List.mem_singleton.1 (hnames ▸ List.mem_map_of_mem (f := (·.exportName)) hd)
    obtain rfl : y = "users" := Option.some.inj (hy.symm.trans hexport)
    exact absurd (isName_iff.2 (by decide)) hnot

/-- A clause that gives a name by a string makes a symbol that is no name, or, if the string is empty, one
that the module does not export. -/
theorem symbol_of_quoted_alias :
    ((tables markedSettings ⟨.slash, ["r", "a.ts"]⟩
        (declarations "const t = pgTable(1);\nexport \x7b t as 'my table' \x7d;\n")).result
      = .ok [⟨"my table", ⟨.slash, ["r", "a.ts"]⟩, ""⟩] ∧ ¬ IsName "my table") ∧
    (tables markedSettings ⟨.slash, ["r", "a.ts"]⟩
        (declarations "const t = pgTable(1);\nexport \x7b t as '' \x7d;\n")).result
      = .ok [⟨"t", ⟨.slash, ["r", "a.ts"]⟩, ""⟩] ∧
    ∀ d ∈ declarations "const t = pgTable(1);\nexport \x7b t as '' \x7d;\n",
      d.exportName ≠ some "t" := by
  have hnot : ¬ IsName "my table" := mt isName_iff.1 (by decide)
  exact ⟨⟨eq_ok_of_toOption (by decide +kernel), hnot⟩, eq_ok_of_toOption (by decide +kernel),
    by decide +kernel⟩

end TableRoster.Extraction
