import Mathlib
import TableRoster.Aggregate
import TableRoster.Proofs.Drift.Normal
import TableRoster.Proofs.Source.Words
import TableRoster.Proofs.Text.Joined

/-! # Reading the aggregate module back

The body is made of blocks of lines with an empty line between them, so it tells its blocks. These tell
the tables, the name of the aggregate, and what else was asked for. -/

namespace TableRoster

open Text

/-! ## Texts on one line -/

namespace Text

theorem not_mem_intercalate {c : Char} {sep : String} {ls : List String} (hsep : c ∉ sep.toList)
    (h : ∀ l ∈ ls, c ∉ l.toList) : c ∉ (sep.intercalate ls).toList := by
  intro hc
  rw [String.toList_intercalate] at hc
  rcases mem_of_mem_intercalate hc with hc | ⟨_, hl, hc⟩
  · exact hsep hc
  · obtain ⟨l, hmem, rfl⟩ := List.mem_map.1 hl
    exact h l hmem hc

theorem mem_upper {c x : Char} (h : x ∈ upper c) : x = c ∨ ∃ n ≥ 65, x = Char.ofNat n := by
  have hruns : ∀ run ∈ upperRuns, 65 ≤ run.first + run.shift := by decide +kernel
  have hcodes : ∀ e ∈ upperExpansions, ∀ n ∈ e.2, 65 ≤ n := by decide
  unfold upper at h
  split at h
  · rename_i codes hfind
    obtain ⟨n, hn, rfl⟩ := List.mem_map.1 h
    exact .inr ⟨n, hcodes _ (List.mem_of_find?_eq_some hfind) n hn, rfl⟩
  · rw [List.mem_singleton.1 h, upperCode, convert]
    split
    · rename_i run hfind
      have hfirst := hruns run (List.mem_of_find?_eq_some hfind)
      have hholds := List.find?_some hfind
      simp only [CaseRun.holds, Bool.and_eq_true, decide_eq_true_eq] at hholds
      refine .inr ⟨_, ?_, rfl⟩
      simp only [CaseRun.partner, Int.ofNat_eq_natCast]
      omega
    · exact .inl (Char.ofNat_toNat c)

theorem not_mem_upper {c x : Char} (h : x ≠ c) (hx : 0 < x.toNat ∧ x.toNat < 65) :
    x ∉ upper c := by
  intro hmem
  rcases mem_upper hmem with rfl | ⟨n, hn, rfl⟩
  · exact h rfl
  · have hn' : (Char.ofNat n).toNat = n ∨ (Char.ofNat n).toNat = 0 := by
      unfold Char.ofNat
      split
      exacts [.inl rfl, .inr rfl]
    omega

theorem trim_append_of_blank {x y : Char} {m b : List Char} (hx : isBlank x = false)
    (hy : isBlank y = false) (hb : ∀ c ∈ b, isBlank c = true) :
    trim (x :: m ++ [y] ++ b) = x :: m ++ [y] := by
  have hb' : ∀ c ∈ b.reverse, isBlank c = true := fun c hc => hb c (List.mem_reverse.1 hc)
  have hdrop : (x :: m ++ [y] ++ b).dropWhile isBlank = x :: m ++ [y] ++ b :=
    List.dropWhile_cons_of_neg (by simp [hx])
  rw [trim, trimBy, hdrop, List.reverse_append, List.dropWhile_append_of_pos hb', List.reverse_append,
    List.reverse_singleton, List.singleton_append, List.dropWhile_cons_of_neg (by simp [hy]),
    List.reverse_cons, List.reverse_reverse]

end Text

/-- A text without a line end. -/
def OneLine (l : String) : Prop :=
  '\n' ∉ l.toList ∧ '\r' ∉ l.toList

instance : DecidablePred OneLine := fun _ => inferInstanceAs (Decidable (_ ∧ _))

theorem OneLine.append {a b : String} (ha : OneLine a) (hb : OneLine b) : OneLine (a ++ b) := by
  simp_all [OneLine]

theorem OneLine.intercalate {sep : String} {ls : List String} (hsep : OneLine sep)
    (h : ∀ l ∈ ls, OneLine l) : OneLine (sep.intercalate ls) :=
  ⟨not_mem_intercalate hsep.1 fun l hl => (h l hl).1,
    not_mem_intercalate hsep.2 fun l hl => (h l hl).2⟩

/-! ## Tables whose texts stand on one line -/

/-- A table whose symbol holds no mark that stands beside it in an import, with a specifier on one
line. -/
structure Table.Legible (t : Table) : Prop where
  symbol : OneLine t.symbol ∧ ',' ∉ t.symbol.toList ∧ '\x7d' ∉ t.symbol.toList
  specifier : OneLine t.specifier

/-- Every word is legible as a symbol. -/
theorem Table.legible_of_isWordText {symbol specifier : String} (file : Path)
    (h : Source.isWordText symbol.toList = true) (hs : OneLine specifier) :
    Table.Legible ⟨symbol, file, specifier⟩ := by
  have hword : ∀ c, Source.continuesWord c = false → c ∉ symbol.toList := fun _ hc =>
    Source.not_mem_of_isWordText h hc
  exact ⟨⟨⟨hword _ (by decide), hword _ (by decide)⟩, hword _ (by decide),
    hword _ (by decide)⟩, hs⟩

namespace Layout

variable {s s' : Settings} {ts ts' : List Table}

/-! ## Blocks -/

def memberLine (symbol : String) : String :=
  "  " ++ symbol ++ ","

def aggregateBlock (name : String) (symbols : List String) : List String :=
  ("export const " ++ name ++ " = \x7b") :: symbols.map memberLine ++ ["\x7d;"]

def reexportBlock (ts : List Table) : List String :=
  "// Re-export every scanned schema module" :: (specifiers ts).map reexportLine

def typeBlock (name : String) : List String :=
  ["/**", " * Database schema type", " */",
    "export type " ++ typeName name ++ " = typeof " ++ name ++ ";"]

def namesBlock (symbols : List String) : List String :=
  ["/**", " * Names of all tables", " */",
    "export const tableNames = [" ++ ", ".intercalate (symbols.map fun n => "'" ++ n ++ "'")
      ++ "] as const;"]

def nameTypeBlock : List String :=
  ["/**", " * Table name type", " */", "export type TableName = typeof tableNames[number];"]

/-- The blocks that are there if they are asked for. -/
def furtherBlocks (s : Settings) (symbols : List String) : List (List String) :=
  (if s.emitTypes then [typeBlock s.aggregateName] else [])
    ++ if s.emitNames then [namesBlock symbols, nameTypeBlock] else []

def blocks (s : Settings) (ts : List Table) : List (List String) :=
  [(groups ts).map importLine, aggregateBlock s.aggregateName (ts.map (·.symbol)), reexportBlock ts]
    ++ furtherBlocks s (ts.map (·.symbol))

theorem specifiers_ne_nil (h : ts ≠ []) : specifiers ts ≠ [] := by
  cases ts with
  | nil => exact absurd rfl h
  | cons t ts => simp [specifiers, firstSeen]

theorem aggregate_eq (name : String) (h : ts ≠ []) :
    aggregate name ts = "\n".intercalate (aggregateBlock name (ts.map (·.symbol))) := by
  have hm : (ts.map (·.symbol)).map memberLine ≠ [] := by simpa using h
  have hopening : " = \x7b\n" = " = \x7b" ++ "\n" := rfl
  have hclosing : "\n\x7d;" = "\n" ++ "\x7d;" := rfl
  change "export const " ++ name ++ " = \x7b\n" ++ _ ++ "\n\x7d;" = _
  rw [aggregateBlock, String.intercalate_append_of_ne_nil (by simp) (by simp),
    String.intercalate_cons_of_ne_nil hm, String.intercalate_singleton, List.map_map, hopening, hclosing]
  simp only [String.append_assoc]
  rfl

theorem reexports_eq (h : ts ≠ []) : reexports ts = "\n".intercalate (reexportBlock ts) := by
  have hs : (specifiers ts).map reexportLine ≠ [] := by simpa using specifiers_ne_nil h
  have hopening : "// Re-export every scanned schema module\n"
    = "// Re-export every scanned schema module" ++ "\n" := by simp
  rw [reexportBlock, String.intercalate_cons_of_ne_nil hs, ← hopening]
  rfl

theorem typeSection_eq (name : String) : typeSection name = "\n".intercalate (typeBlock name) := by
  have hopening : "/**\n * Database schema type\n */\nexport type "
    = "/**" ++ ("\n" ++ (" * Database schema type" ++ ("\n" ++ (" */" ++ ("\n" ++ "export type "))))) := by
    simp
  change "/**\n * Database schema type\n */\nexport type " ++ _ ++ _ ++ _ ++ _ = _
  simp only [typeBlock, String.intercalate_cons_cons, String.intercalate_singleton, hopening,
    String.append_assoc]

theorem namesSection_eq (ts : List Table) :
    namesSection ts = "\n".intercalate (namesBlock (ts.map (·.symbol))) := by
  have hopening : "/**\n * Names of all tables\n */\nexport const tableNames = ["
    = "/**" ++ ("\n" ++ (" * Names of all tables" ++ ("\n" ++ (" */" ++ ("\n"
      ++ "export const tableNames = ["))))) := by simp
  change "/**\n * Names of all tables\n */\nexport const tableNames = [" ++ _ ++ _ = _
  simp only [namesBlock, String.intercalate_cons_cons, String.intercalate_singleton,
    hopening, String.append_assoc, List.map_map, Function.comp_def]

theorem sections_eq (h : ts ≠ []) : sections s ts = (blocks s ts).map "\n".intercalate := by
  have hn : nameTypeSection = "\n".intercalate nameTypeBlock := by decide
  rw [sections, blocks, furtherBlocks, aggregate_eq _ h, reexports_eq h, typeSection_eq,
    namesSection_eq, hn, imports]
  cases s.emitTypes <;> cases s.emitNames <;> rfl

/-! ## Every block is lines that are not empty -/

/-- A text that is one line, and not an empty one. -/
def IsRow (l : String) : Prop :=
  l ≠ "" ∧ OneLine l

instance : DecidablePred IsRow := fun _ => inferInstanceAs (Decidable (_ ∧ _))

theorem mem_firstSeen {α : Type} [DecidableEq α] {a : α} {as : List α} :
    a ∈ firstSeen as ↔ a ∈ as := by
  induction as with
  | nil => rfl
  | cons x as ih =>
    by_cases hx : a = x <;> simp [firstSeen, ih, hx]

theorem legible_of_mem_groups (h : ∀ t ∈ ts, t.Legible) {g : String × List String}
    (hg : g ∈ groups ts) : OneLine g.1 ∧ g.2 ≠ [] ∧ ∀ n ∈ g.2,
      OneLine n ∧ ',' ∉ n.toList ∧ '\x7d' ∉ n.toList := by
  simp only [groups, specifiers, List.mem_map, mem_firstSeen] at hg
  obtain ⟨_, ⟨t, ht, rfl⟩, rfl⟩ := hg
  refine ⟨(h t ht).specifier, ?_, ?_⟩
  · simpa using ⟨t, ht, rfl⟩
  · intro n hn
    simp only [List.mem_map, List.mem_filter] at hn
    obtain ⟨t', ⟨ht', -⟩, rfl⟩ := hn
    exact (h t' ht').symbol

/-- A name for the aggregate starts within the first 128 characters. -/
theorem toNat_lt_of_startsName {c : Char} (h : (c.isAlpha || c == '_' || c == '$') = true) :
    c.toNat < 128 := by
  simp only [Bool.or_eq_true, beq_iff_eq] at h
  obtain (h | rfl) | rfl := h
  · delta Char.isAlpha Char.isUpper Char.isLower at h
    simp [UInt32.le_iff_toNat_le] at h
    omega
  all_goals decide

/-- Only one run starts within them. -/
theorem upperCode_of_lt {n : Nat} (hn : n < 128) :
    upperCode n = convert [⟨97, 122, 1, -32⟩] n := by
  have hbasic : upperRuns.filter (·.first < 128) = [⟨97, 122, 1, -32⟩] := rfl
  have hfind : upperRuns.find? (·.holds n) = [⟨97, 122, 1, -32⟩].find? (·.holds n) := by
    rw [← hbasic, List.find?_filter]
    refine List.find?_congr fun run _ => ?_
    rw [Bool.eq_iff_iff]
    simp [CaseRun.holds]
    omega
  rw [upperCode, convert, convert, hfind]

/-- Such a character has one upper case, and it is the one of the basic letters. -/
theorem upper_of_startsName {c : Char} (h : (c.isAlpha || c == '_' || c == '$') = true) :
    Text.upper c = [c.toUpper] := by
  have hlt := toNat_lt_of_startsName h
  have hexpansions : ∀ e ∈ upperExpansions, 128 ≤ e.1 := by decide
  have hnone : upperExpansions.find? (·.1 == c.toNat) = none := by
    rw [List.find?_eq_none]
    intro e he heq
    have hle := hexpansions e he
    rw [beq_iff_eq.1 heq] at hle
    omega
  have hall : ∀ n < 128, Char.ofNat (convert [⟨97, 122, 1, -32⟩] n) = (Char.ofNat n).toUpper := by
    decide +kernel
  have hc := hall c.toNat hlt
  rw [Char.ofNat_toNat] at hc
  rw [upper, hnone, upperCode_of_lt hlt, hc]

theorem oneLine_aggregateName {name : String} (h : Settings.isAggregateName name.toList = true) :
    OneLine name ∧ OneLine (typeName name) := by
  unfold OneLine typeName
  revert h
  cases name.toList with
  | nil => simp [Settings.isAggregateName]
  | cons c r =>
    simp only [Settings.isAggregateName, Bool.and_eq_true, List.all_eq_true]
    rintro ⟨hc, hr⟩
    have hrest : ∀ x, (Text.isWord x || x == '$') = false → x ∉ r := fun x hx hmem => by
      simp [hr x hmem] at hx
    have hfirst : ∀ x, (x.isAlpha || x == '_' || x == '$') = false → x ≠ c := by
      rintro x hx rfl
      simp [hc] at hx
    have hn : '\n' ≠ c ∧ '\n' ∉ r := ⟨hfirst _ (by decide), hrest _ (by decide)⟩
    have hr : '\r' ≠ c ∧ '\r' ∉ r := ⟨hfirst _ (by decide), hrest _ (by decide)⟩
    simp [hn, hr, not_mem_upper hn.1 (by decide), not_mem_upper hr.1 (by decide)]

theorem IsRow.append {a b : String} (ha : IsRow a) (hb : OneLine b) : IsRow (a ++ b) :=
  ⟨by simp [ha.1], ha.2.append hb⟩

theorem isRow_importLine {g : String × List String} (hspec : OneLine g.1)
    (hnames : ∀ n ∈ g.2, OneLine n) : IsRow (importLine g) := by
  have hjoined : OneLine (", ".intercalate g.2) := .intercalate (by decide) hnames
  exact ((((show IsRow "import \x7b " by decide).append hjoined).append (by decide)).append
    hspec).append (by decide)

theorem isRow_memberLine {n : String} (h : OneLine n) : IsRow (memberLine n) :=
  ((show IsRow "  " by decide).append h).append (by decide)

theorem isRow_reexportLine {l : String} (h : OneLine l) : IsRow (reexportLine l) :=
  ((show IsRow "export * from \"" by decide).append h).append (by decide)

theorem isRow_of_mem_aggregateBlock {name : String} {symbols : List String} (hname : OneLine name)
    (h : ∀ n ∈ symbols, OneLine n) : ∀ l ∈ aggregateBlock name symbols, IsRow l := by
  have hopening : IsRow ("export const " ++ name ++ " = \x7b") :=
    ((show IsRow "export const " by decide).append hname).append (by decide)
  have hmembers : ∀ l ∈ symbols.map memberLine, IsRow l := by
    simpa using fun n hn => isRow_memberLine (h n hn)
  have hclosing : IsRow "\x7d;" := by decide
  intro l hl
  rcases List.mem_append.1 hl with hl | hl
  · rcases List.mem_cons.1 hl with rfl | hl
    exacts [hopening, hmembers l hl]
  · rcases List.mem_singleton.1 hl with rfl
    exact hclosing

theorem isRow_of_mem_reexportBlock (h : ∀ t ∈ ts, t.Legible) : ∀ l ∈ reexportBlock ts, IsRow l := by
  simp only [reexportBlock, specifiers, List.forall_mem_cons, List.mem_map, mem_firstSeen]
  refine ⟨by decide, ?_⟩
  rintro _ ⟨_, ⟨t, ht, rfl⟩, rfl⟩
  exact isRow_reexportLine (h t ht).specifier

theorem isRow_of_mem_typeBlock {name : String} (h : OneLine name ∧ OneLine (typeName name)) :
    ∀ l ∈ typeBlock name, IsRow l := by
  simp only [typeBlock, List.forall_mem_cons]
  refine ⟨by decide, by decide, by decide, ?_, by simp⟩
  exact ((((show IsRow "export type " by decide).append h.2).append (by decide)).append
    h.1).append (by decide)

theorem isRow_of_mem_namesBlock {symbols : List String} (h : ∀ n ∈ symbols, OneLine n) :
    ∀ l ∈ namesBlock symbols, IsRow l := by
  have hquoted : ∀ q ∈ symbols.map fun n => "'" ++ n ++ "'", OneLine q := by
    simpa using fun n hn => ((show OneLine "'" by decide).append (h n hn)).append (by decide)
  simp only [namesBlock, List.forall_mem_cons]
  refine ⟨by decide, by decide, by decide, ?_, by simp⟩
  exact ((show IsRow "export const tableNames = [" by decide).append
    (.intercalate (by decide) hquoted)).append (by decide)

/-- The rows of a body. -/
theorem isRow_of_mem_blocks (hs : s.Valid) (hts : ∀ t ∈ ts, t.Legible) :
    ∀ b ∈ blocks s ts, ∀ l ∈ b, IsRow l := by
  have hname := oneLine_aggregateName hs.aggregate_ok
  have hsymbols : ∀ n ∈ ts.map (·.symbol), OneLine n := by
    simpa using fun t ht => (hts t ht).symbol.1
  have himports : ∀ l ∈ (groups ts).map importLine, IsRow l := by
    rw [List.forall_mem_map]
    intro g hg
    obtain ⟨hspec, -, hnames⟩ := legible_of_mem_groups hts hg
    exact isRow_importLine hspec fun n hn => (hnames n hn).1
  have hfurther : ∀ b ∈ furtherBlocks s (ts.map (·.symbol)), ∀ l ∈ b, IsRow l := by
    intro b hb
    rcases List.mem_append.1 hb with hb | hb <;> split at hb
    · rcases List.mem_singleton.1 hb with rfl
      exact isRow_of_mem_typeBlock hname
    · cases hb
    · rcases List.mem_pair.1 hb with rfl | rfl
      exacts [isRow_of_mem_namesBlock hsymbols, by decide]
    · cases hb
  simp only [blocks, List.forall_mem_append, List.forall_mem_cons]
  exact ⟨⟨himports, isRow_of_mem_aggregateBlock hname.1 hsymbols, isRow_of_mem_reexportBlock hts,
    by simp⟩, hfurther⟩

/-- A body ends lines in one way, if its symbols and specifiers do. -/
theorem cr_not_mem_body (hs : s.Valid)
    (h : ∀ t ∈ ts, '\r' ∉ t.symbol.toList ∧ '\r' ∉ t.specifier.toList) : '\r' ∉ (body s ts).toList := by
  obtain ⟨⟨-, hname⟩, -, htype⟩ := oneLine_aggregateName hs.aggregate_ok
  have happend : ∀ {a b : String}, '\r' ∉ a.toList → '\r' ∉ b.toList → '\r' ∉ (a ++ b).toList :=
    fun ha hb => by simp [ha, hb]
  have hspecifiers : ∀ x ∈ specifiers ts, '\r' ∉ x.toList := by
    simp only [specifiers, mem_firstSeen, List.forall_mem_map]
    exact fun t ht => (h t ht).2
  have himports : ∀ g ∈ groups ts, '\r' ∉ (importLine g).toList := by
    simp only [groups, List.forall_mem_map]
    intro x hx
    refine happend (happend (happend (happend (by decide) ?_) (by decide)) (hspecifiers x hx)) (by decide)
    exact not_mem_intercalate (by decide) (List.forall_mem_map.2 fun t ht =>
      (h t (List.mem_filter.1 ht).1).1)
  have hmembers : ∀ t ∈ ts, '\r' ∉ ("  " ++ t.symbol ++ ",").toList := fun t ht =>
    happend (happend (by decide) (h t ht).1) (by decide)
  have hquoted : ∀ t ∈ ts, '\r' ∉ ("'" ++ t.symbol ++ "'").toList := fun t ht =>
    happend (happend (by decide) (h t ht).1) (by decide)
  have hreexports : ∀ x ∈ specifiers ts, '\r' ∉ (reexportLine x).toList := fun x hx =>
    happend (happend (by decide) (hspecifiers x hx)) (by decide)
  have hjoin : ∀ {α : Type} {f : α → String} {as : List α} {sep : String}, '\r' ∉ sep.toList →
      (∀ a ∈ as, '\r' ∉ (f a).toList) → '\r' ∉ (sep.intercalate (as.map f)).toList :=
    fun hsep hf => not_mem_intercalate hsep (List.forall_mem_map.2 hf)
  have hsections : ∀ x ∈ sections s ts, '\r' ∉ x.toList := by
    simp only [sections, List.forall_mem_append, List.forall_mem_cons]
    refine ⟨⟨⟨hjoin (by decide) himports, ?_, happend (by decide) (hjoin (by decide) hreexports),
      List.forall_mem_nil _⟩, ?_⟩, ?_⟩
    · exact happend (happend (happend (happend (by decide) hname) (by decide))
        (hjoin (by decide) hmembers)) (by decide)
    · split
      · exact List.forall_mem_singleton.2
          (happend (happend (happend (happend (by decide) htype) (by decide)) hname) (by decide))
      · exact List.forall_mem_nil _
    · split
      · simp only [List.forall_mem_cons]
        exact ⟨happend (happend (by decide) (hjoin (by decide) hquoted)) (by decide), by decide,
          List.forall_mem_nil _⟩
      · exact List.forall_mem_nil _
  exact happend (not_mem_intercalate (by decide) hsections) (by decide)

/-! ## Every block tells what it is made of -/

theorem memberLine_injective {n n' : String} (h : memberLine n = memberLine n') : n = n' := by
  simpa [memberLine] using h

theorem importLine_injective {g g' : String × List String} (hne : g.2 ≠ []) (hne' : g'.2 ≠ [])
    (hg : ∀ n ∈ g.2, ',' ∉ n.toList ∧ '\x7d' ∉ n.toList)
    (hg' : ∀ n ∈ g'.2, ',' ∉ n.toList ∧ '\x7d' ∉ n.toList) (h : importLine g = importLine g') :
    g = g' := by
  have hbrace : ∀ names : List String, (∀ n ∈ names, ',' ∉ n.toList ∧ '\x7d' ∉ n.toList) →
      '\x7d' ∉ (", ".intercalate names ++ " ").toList := by
    intro names hn
    simp only [String.toList_append, List.mem_append, not_or]
    exact ⟨not_mem_intercalate (by decide) fun n h => (hn n h).2, by decide⟩
  have hshape : ∀ g : String × List String, (importLine g).toList = "import \x7b ".toList
      ++ ((", ".intercalate g.2 ++ " ").toList ++ '\x7d' :: (" from '" ++ g.1 ++ "';").toList) := by
    intro g
    simp [importLine]
  rw [← String.toList_inj, hshape, hshape] at h
  obtain ⟨hnames, hspec⟩ := append_cons_inj_of_not_mem (hbrace _ hg) (hbrace _ hg')
    (List.append_cancel_left h)
  have hspec : g.1 = g'.1 := by
    simpa [← String.toList_inj] using hspec
  have hsep : ", ".toList = [',', ' '] := by decide
  simp only [String.toList_append, String.toList_intercalate, List.append_cancel_right_eq, hsep]
    at hnames
  have hmap := intercalate_injective (by simpa using hne) (by simpa using hne')
    (by simpa using fun n hn => (hg n hn).1) (by simpa using fun n hn => (hg' n hn).1) hnames
  exact Prod.ext hspec (List.map_injective_iff.2 (fun _ _ => String.toList_inj.1) hmap)

theorem aggregateBlock_injective {name name' : String} {symbols symbols' : List String}
    (h : aggregateBlock name symbols = aggregateBlock name' symbols') :
    name = name' ∧ symbols = symbols' := by
  obtain ⟨hname, hrest⟩ := List.cons.inj h
  refine ⟨by simpa using hname, ?_⟩
  exact List.map_injective_iff.2 (fun _ _ => memberLine_injective) (List.append_cancel_right hrest)

theorem furtherBlocks_injective {symbols symbols' : List String}
    (h : furtherBlocks s symbols = furtherBlocks s' symbols') :
    s.emitTypes = s'.emitTypes ∧ s.emitNames = s'.emitNames := by
  have hlength := congrArg List.length h
  revert hlength
  unfold furtherBlocks
  cases s.emitTypes <;> cases s.emitNames <;> cases s'.emitTypes <;> cases s'.emitNames <;> simp

theorem blocks_injective (hts : ∀ t ∈ ts, t.Legible) (hts' : ∀ t ∈ ts', t.Legible)
    (h : blocks s ts = blocks s' ts') : ts.map (·.symbol) = ts'.map (·.symbol)
      ∧ groups ts = groups ts' ∧ s.aggregateName = s'.aggregateName ∧ s.emitTypes = s'.emitTypes
      ∧ s.emitNames = s'.emitNames := by
  simp only [blocks, List.cons_append, List.nil_append, List.cons.injEq] at h
  obtain ⟨himports, haggregate, -, hfurther⟩ := h
  obtain ⟨hname, hsymbols⟩ := aggregateBlock_injective haggregate
  have hgroups : groups ts = groups ts' := by
    refine map_injective_of_mem (fun g hg => (legible_of_mem_groups hts hg).2)
      (fun g hg => (legible_of_mem_groups hts' hg).2) ?_ himports
    rintro g g' ⟨hne, hg⟩ ⟨hne', hg'⟩ heq
    exact importLine_injective hne hne' (fun n hn => (hg n hn).2) (fun n hn => (hg' n hn).2) heq
  exact ⟨hsymbols, hgroups, hname, furtherBlocks_injective hfurther⟩

/-! ## The body tells its blocks -/

/-- The body without the line break at its end. -/
def core (s : Settings) (ts : List Table) : String :=
  "\n".intercalate ([""].intercalate (blocks s ts))

theorem body_eq (h : ts ≠ []) : body s ts = core s ts ++ "\n" := by
  have hne : ∀ b ∈ blocks s ts, b ≠ [] := by
    simp only [blocks, furtherBlocks, List.forall_mem_append, List.forall_mem_cons]
    refine ⟨⟨by simpa [groups] using specifiers_ne_nil h, by simp [aggregateBlock],
      by simp [reexportBlock], by simp⟩, ?_, ?_⟩ <;>
    split <;> simp [typeBlock, namesBlock, nameTypeBlock]
  rw [body, core, sections_eq h, intercalate_blocks hne]

theorem rows_ne_nil (s : Settings) (ts : List Table) : [""].intercalate (blocks s ts) ≠ [] := by
  simp [blocks, aggregateBlock]

theorem oneLine_of_mem_rows (hs : s.Valid) (hts : ∀ t ∈ ts, t.Legible) :
    ∀ l ∈ [""].intercalate (blocks s ts), OneLine l := by
  intro l hl
  rcases mem_of_mem_intercalate hl with hl | ⟨b, hb, hl⟩
  · rw [List.mem_singleton.1 hl]
    decide
  · exact (isRow_of_mem_blocks hs hts b hb l hl).2

theorem core_injective (hs : s.Valid) (hs' : s'.Valid) (hts : ∀ t ∈ ts, t.Legible)
    (hts' : ∀ t ∈ ts', t.Legible) (h : core s ts = core s' ts') : blocks s ts = blocks s' ts' := by
  have hlines : [""].intercalate (blocks s ts) = [""].intercalate (blocks s' ts') := by
    rw [core, core, ← String.toList_inj, String.toList_intercalate, String.toList_intercalate] at h
    have hmap := intercalate_injective (c := '\n') (s := []) (by simpa using rows_ne_nil s ts)
      (by simpa using rows_ne_nil s' ts')
      (by simpa using fun l hl => (oneLine_of_mem_rows hs hts l hl).1)
      (by simpa using fun l hl => (oneLine_of_mem_rows hs' hts' l hl).1) h
    exact List.map_injective_iff.2 (fun _ _ => String.toList_inj.1) hmap
  exact intercalate_injective (by simp [blocks]) (by simp [blocks])
    (fun b hb hmem => (isRow_of_mem_blocks hs hts b hb _ hmem).1 rfl)
    (fun b hb hmem => (isRow_of_mem_blocks hs' hts' b hb _ hmem).1 rfl) hlines

theorem cr_not_mem_core (hs : s.Valid) (hts : ∀ t ∈ ts, t.Legible) : '\r' ∉ (core s ts).toList :=
  not_mem_intercalate (by decide) fun l hl => (oneLine_of_mem_rows hs hts l hl).2

def Terminated (l : String) : Prop :=
  [';'] <:+ l.toList

instance : DecidablePred Terminated := fun _ => inferInstanceAs (Decidable (_ <:+ _))

theorem terminated_append (a : String) {b : String} (h : Terminated b) :
    Terminated (a ++ b) := by
  rw [Terminated, String.toList_append]
  exact h.trans (List.suffix_append _ _)

theorem closes_map (rows : List String) {α : Type} {f : α → String} {as : List α} (hne : as ≠ [])
    (hf : ∀ a, Terminated (f a)) : ∃ r, [r] <:+ rows ++ as.map f ∧ Terminated r := by
  refine ⟨f (as.getLast hne), ?_, hf _⟩
  have hlast : [as.getLast hne] <:+ as := ⟨_, List.dropLast_concat_getLast hne⟩
  exact (hlast.map f).trans (List.suffix_append _ _)

theorem closes_of_mem_blocks (s : Settings) (h : ts ≠ []) :
    ∀ b ∈ blocks s ts, ∃ r, [r] <:+ b ∧ Terminated r := by
  have hspecifiers := specifiers_ne_nil h
  have himports : ∃ r, [r] <:+ (groups ts).map importLine ∧ Terminated r :=
    closes_map [] (by simpa [groups] using hspecifiers) fun g => terminated_append _ (by decide)
  have hreexports : ∃ r, [r] <:+ reexportBlock ts ∧ Terminated r :=
    closes_map [_] hspecifiers fun l => terminated_append _ (by decide)
  have hfurther : ∀ b ∈ furtherBlocks s (ts.map (·.symbol)), ∃ r, [r] <:+ b ∧ Terminated r := by
    intro b hb
    rcases List.mem_append.1 hb with hb | hb <;> split at hb
    · rcases List.mem_singleton.1 hb with rfl
      exact ⟨_, List.suffix_append ["/**", _, _] [_], terminated_append _ (by decide)⟩
    · cases hb
    · rcases List.mem_pair.1 hb with rfl | rfl
      · exact ⟨_, List.suffix_append ["/**", _, _] [_], terminated_append _ (by decide)⟩
      · exact ⟨_, List.suffix_append ["/**", _, _] [_], by decide⟩
    · cases hb
  simp only [blocks, List.forall_mem_append, List.forall_mem_cons]
  exact ⟨⟨himports, ⟨_, List.suffix_append _ _, by decide⟩, hreexports, by simp⟩, hfurther⟩

theorem terminated_core (s : Settings) (h : ts ≠ []) : Terminated (core s ts) := by
  have hne : blocks s ts ≠ [] := by simp [blocks]
  obtain ⟨r, hb, hr⟩ := closes_of_mem_blocks s h _ (List.getLast_mem hne)
  have hrow : [r] <:+ [""].intercalate (blocks s ts) :=
    hb.trans (suffix_intercalate _ ⟨_, List.dropLast_concat_getLast hne⟩)
  rw [core, Terminated, String.toList_intercalate]
  exact hr.trans (suffix_intercalate _ (by simpa using hrow.map String.toList))

theorem emitted {t : Timestamp} {a : Aggregate} (h : (Aggregate.emit s t ts).result = .ok a) :
    ts ≠ [] ∧ a = ⟨body s ts, t, ts⟩ := by
  simp only [Aggregate.emit] at h
  split at h
  · cases h
  · rename_i hne
    split at h
    · cases h
    · split at h
      · cases h
      · split at h <;> cases h <;> exact ⟨hne, rfl⟩

/-- What is compared of a text that goes on behind a line with the time, and ends with a statement. -/
theorem normal_stamped (t : Timestamp) {r : String} (hr : '\r' ∉ r.toList) :
    Drift.normal (opening ++ "\n" ++ stampLine t ++ "\n" ++ (r ++ ";\n")) = opening ++ "\n" ++ (r ++ ";") := by
  obtain ⟨⟨o, ho, -⟩, -, -⟩ := Drift.opening_toList
  obtain ⟨hn, hcr⟩ := Drift.lineEnd_not_mem_stampLine t
  have htext : (opening ++ "\n" ++ stampLine t ++ "\n" ++ (r ++ ";\n")).toList
      = opening.toList ++ '\n' :: ((stampLine t).toList ++ '\n' :: (r ++ ";\n").toList) := by
    simp
  have hrest : '\r' ∉ (r ++ ";\n").toList := by
    simp [hr]
  have htrim := trim_append_of_blank (x := '/') (y := ';') (m := '*' :: o ++ '\n' :: r.toList)
    (b := ['\n']) (by decide) (by decide) (List.forall_mem_singleton.2 (by decide))
  rw [Drift.normal_line hn hcr (Drift.isStampLine_stampLine t) htext,
    ← List.append_nil (r ++ ";\n").toList, unifyLineEnds_append hrest, ← String.toList_inj,
    String.toList_ofList]
  simp only [String.toList_append, ho]
  simpa [unifyLineEnds] using htrim

/-- What is compared of a module with this body: all but the line with the time, and the line break at
the end. -/
theorem normal_terminated (t : Timestamp) {m : String} (hm : '\r' ∉ m.toList) :
    Drift.normal (header t ++ "\n" ++ (m ++ ";\n")) = opening ++ "\n" ++ " */\n\n" ++ (m ++ ";") := by
  have hbody : '\r' ∉ (" */\n\n" ++ m).toList := by
    simp [hm]
  have htext : header t ++ "\n" ++ (m ++ ";\n")
      = opening ++ "\n" ++ stampLine t ++ "\n" ++ (" */\n\n" ++ m ++ ";\n") := by
    simp [← String.toList_inj, header]
  rw [htext, normal_stamped t hbody]
  simp only [String.append_assoc]

theorem normal_body (t : Timestamp) (hs : s.Valid) (hts : ∀ t ∈ ts, t.Legible) (hne : ts ≠ []) :
    Drift.normal (header t ++ "\n" ++ body s ts)
      = opening ++ "\n" ++ " */\n\n" ++ core s ts := by
  obtain ⟨r, hr⟩ := terminated_core s hne
  have hcore : core s ts = String.ofList r ++ ";" := by
    rw [← String.toList_inj, ← hr]
    simp
  have hclean : '\r' ∉ (String.ofList r).toList := by
    have := cr_not_mem_core hs hts
    rw [hcore] at this
    simpa using this
  have hend : String.ofList r ++ ";" ++ "\n" = String.ofList r ++ ";\n" := by
    rw [String.append_assoc]
    rfl
  rw [body_eq hne, hcore, hend, normal_terminated t hclean]

/-- Modules that are the same but for their times are made of the same tables, in the same groups,
with the same aggregate and the same of what else can be asked for. -/
theorem contents_eq_of_normal_eq {t t' : Timestamp} {a a' : Aggregate} (hs : s.Valid) (hs' : s'.Valid)
    (hts : ∀ t ∈ ts, t.Legible) (hts' : ∀ t ∈ ts', t.Legible)
    (ha : (Aggregate.emit s t ts).result = .ok a) (ha' : (Aggregate.emit s' t' ts').result = .ok a')
    (h : Drift.normal a.text = Drift.normal a'.text) :
    ts.map (·.symbol) = ts'.map (·.symbol) ∧ groups ts = groups ts'
      ∧ s.aggregateName = s'.aggregateName ∧ s.emitTypes = s'.emitTypes
      ∧ s.emitNames = s'.emitNames := by
  obtain ⟨hne, rfl⟩ := emitted ha
  obtain ⟨hne', rfl⟩ := emitted ha'
  rw [Aggregate.text, Aggregate.text, normal_body t hs hts hne, normal_body t' hs' hts' hne'] at h
  exact blocks_injective hts hts' (core_injective hs hs' hts hts' (by simpa using h))

/-- Settings for tables in a folder. -/
def folderSettings (folder : String) : Settings :=
  ⟨⟨.slash, [folder]⟩, ⟨.slash, [folder, "index.ts"]⟩, [], [], [], true, true, [], "pgTable(", "db", false⟩

theorem valid_folderSettings (folder : String) : (folderSettings folder).Valid where
  include_ok := by simp [folderSettings]
  exclude_ok := by simp [folderSettings]
  marker_ok := by simp [folderSettings]
  aggregate_ok := show Settings.isAggregateName "db".toList = true by decide

/-- Two tables of two modules in a folder. -/
def folderTables (folder : String) : List Table :=
  [⟨"users", ⟨.slash, [folder, "users.ts"]⟩, "./users"⟩, ⟨"posts", ⟨.slash, [folder, "posts.ts"]⟩, "./posts"⟩]

def folderAggregate (folder : String) (time : Timestamp) : Aggregate :=
  ⟨body (folderSettings folder) (folderTables folder), time, folderTables folder⟩

/-- Tables of another folder may make the same module at another time. -/
theorem contents_eq_of_normal_eq_other_folder :
    (folderTables "a").map (·.symbol) = (folderTables "b").map (·.symbol)
      ∧ groups (folderTables "a") = groups (folderTables "b")
      ∧ (folderSettings "a").aggregateName = (folderSettings "b").aggregateName
      ∧ (folderSettings "a").emitTypes = (folderSettings "b").emitTypes
      ∧ (folderSettings "a").emitNames = (folderSettings "b").emitNames := by
  have hvalid : ∀ folder, (folderSettings folder).Valid := fun _ =>
    ⟨by simp [folderSettings], by simp [folderSettings], by simp [folderSettings],
      show Settings.isAggregateName "db".toList = true by decide +kernel⟩
  have hlegible : ∀ folder, ∀ t ∈ folderTables folder, t.Legible := by
    intro folder
    simp only [folderTables, List.forall_mem_cons]
    exact ⟨Table.legible_of_isWordText _ (by decide +kernel) (by decide),
      Table.legible_of_isWordText _ (by decide +kernel) (by decide), by simp⟩
  have hemit : ∀ folder t, (Aggregate.emit (folderSettings folder) t (folderTables folder)).result
      = .ok (folderAggregate folder t) := fun _ _ => rfl
  have hnormal : ∀ t t', Drift.normal (folderAggregate "a" t).text
      = Drift.normal (folderAggregate "b" t').text := fun t t' => Drift.normal_header t t' _
  exact contents_eq_of_normal_eq (hvalid "a") (hvalid "b") (hlegible "a") (hlegible "b")
    (hemit "a" ⟨2024, 1, 2, 3, 4, 5, 0, some 0⟩) (hemit "b" ⟨2025, 1, 2, 3, 4, 5, 0, none⟩)
    (hnormal _ _)

end Layout

end TableRoster
