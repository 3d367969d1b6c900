import Mathlib.Data.List.Forall2
import TableRoster.Proofs.Source.Binding
import TableRoster.Proofs.Source.Words

/-! # Lines that bind

A binding on a line of its own is read up to the end of its initializer. What becomes of it depends
on whether the expression ends there. -/

namespace TableRoster.Source

/-- A binding, as it is printed on a line. -/
structure Line where
  exported : Bool
  keyword : String
  name : String
  initializer : String

namespace Line

/-- The text of a line, without its end. -/
def text (l : Line) : String :=
  (if l.exported then "export " else "") ++ l.keyword ++ " " ++ l.name ++ " = " ++ l.initializer

/-- What a line has of a declaration: its name, keyword and initializer, and the name it is exported
by. -/
def printed (l : Line) : String × String × Option String × Option String :=
  (l.name, l.keyword, some l.initializer, if l.exported then some l.name else none)

/-- A line that binds a name to a complete expression. -/
structure Valid (l : Line) : Prop where
  keyword : l.keyword ∈ bindingKeywords
  name : isWordText l.name.toList = true
  name_ne : l.name ≠ "enum"
  complete : Complete l.initializer

end Line

variable {rd : Reader} {w : List Char}

/-! ## The part in front of the initializer -/

theorem keyword_isWordText : ∀ k ∈ bindingKeywords, isWordText k.toList = true := by decide

/-- The part of a line in front of its initializer. -/
def Line.opening (l : Line) : List Char :=
  (if l.exported then "export ".toList else []) ++ (l.keyword.toList ++ [' '])
    ++ (l.name.toList ++ [' ']) ++ ['=', ' ']

theorem Line.toList_text (l : Line) : l.text.toList = l.opening ++ l.initializer.toList := by
  unfold Line.text Line.opening
  cases l.exported <;> simp

/-- The tokens of the part of a line in front of its initializer. -/
structure Line.Opened (l : Line) (ts : List Token) (x : Option Token) (kw name eq : Token) : Prop where
  tokens : ts = x.toList ++ [kw, name, eq]
  exported : x.isSome = l.exported
  isExport : ∀ t, x = some t → t.isExport
  keyword : kw.isWordOf bindingKeywords = true
  keyword_text : kw.text = l.keyword
  name_kind : name.kind = .word
  name_text : name.text = l.name
  isEquals : eq.isEquals

theorem Line.Valid.reads_opening {l : Line} (hl : l.Valid) (hp : 1 ≤ rd.line) :
    ∃ ts x kw name eq rd', Reads w rd l.opening ts rd' ∧ l.Opened ts x kw name eq ∧ rd'.Ready := by
  have hk := keyword_isWordText _ hl.keyword
  have tail : ∀ (w : List Char) (rd : Reader), 1 ≤ rd.line → ∃ kw name eq rd', Reads w rd
      (l.keyword.toList ++ [' '] ++ (l.name.toList ++ [' ']) ++ ['=', ' ']) [kw, name, eq] rd' ∧
      (kw.kind = .word ∧ kw.text = l.keyword) ∧ (name.kind = .word ∧ name.text = l.name) ∧
      eq.isEquals ∧ rd'.Ready := by
    intro w rd hp
    have hkw : Reads (l.name.toList ++ [' '] ++ (['=', ' '] ++ w)) rd (l.keyword.toList ++ [' ']) _ _ :=
      .spacedWord hk
    have h := hkw.append (Reads.spacedWord hl.name)
    refine ⟨_, _, _, _, h.append .spacedEquals, ⟨rfl, String.ofList_toList⟩,
      ⟨rfl, String.ofList_toList⟩, ⟨rfl, rfl⟩, ?_⟩
    exact (Reader.advance_mark_ready (Nat.le_trans hp h.line_le) rfl).advance_blank _
  unfold Line.opening
  cases hx : l.exported with
  | false =>
      obtain ⟨kw, name, eq, rd', h, hkw, hname, heq, hr⟩ := tail w rd hp
      refine ⟨_, none, kw, name, eq, rd', by simpa using h, ?_, hr⟩
      exact ⟨rfl, hx.symm, by simp, by simp [Token.isWordOf, hkw, hl.keyword], hkw.2, hname.1,
        hname.2, heq⟩
  | true =>
      have hexport : isWordText "export".toList = true := by decide
      have hsplit : "export ".toList = "export".toList ++ [' '] := by decide
      have h₀ : Reads (l.keyword.toList ++ [' '] ++ (l.name.toList ++ [' ']) ++ ['=', ' '] ++ w) rd
          ("export".toList ++ [' ']) _ _ := .spacedWord hexport
      obtain ⟨kw, name, eq, rd', h, hkw, hname, heq, hr⟩ :=
        tail w _ (Nat.le_trans hp h₀.line_le)
      refine ⟨_, some (rd.tokenOf .word "export".toList), kw, name, eq, rd',
        by simpa [hsplit] using h₀.append h, ?_, hr⟩
      exact ⟨rfl, hx.symm, by rintro t ⟨⟩; exact ⟨rfl, rfl⟩,
        by simp [Token.isWordOf, hkw, hl.keyword], hkw.2, hname.1, hname.2, heq⟩

/-! ## An exported name -/

/-- The tokens of an exported constant up to its name. -/
structure Exports (x : String) (e kw name : Token) : Prop where
  isExport : e.isExport
  keyword : kw.isWordOf bindingKeywords = true
  keyword_text : kw.text = "const"
  name_kind : name.kind = .word
  name_text : name.text = x

theorem Reads.exported {x : String} (hx : isWordText x.toList = true)
    (hw : w.dropWhile continuesWord = w) :
    ∃ e kw name rd', Reads w .start ("export const ".toList ++ x.toList) [e, kw, name] rd' ∧
      Exports x e kw name ∧ 1 ≤ rd'.line := by
  have hname : ∀ rd : Reader, Reads w rd ("const ".toList ++ x.toList)
      [rd.tokenOf .word "const".toList, _] _ := fun rd =>
    (Reads.spacedWord (s := "const".toList) (by decide)).append (.word hx hw)
  have hread : Reads w .start ("export ".toList ++ ("const ".toList ++ x.toList)) _ _ :=
    (Reads.spacedWord (s := "export".toList) (by decide)).append (hname _)
  exact ⟨_, _, _, _, hread, ⟨⟨rfl, by decide⟩, by decide, by decide, rfl, String.ofList_toList⟩,
    hread.line_le⟩

/-- An equals sign in front of a blank, with or without a blank in front of it. -/
theorem reads_equals (s : List Char) (hs : s ∈ [[], [' ']]) (hp : 1 ≤ rd.line) :
    ∃ eq rd', (∀ w, Reads w rd (s ++ ['=', ' ']) [eq] rd') ∧ eq.isEquals ∧ rd'.Ready := by
  have hready : ∀ rd : Reader, 1 ≤ rd.line →
      ((rd.advance (.token .mark) ['=']).advance .blank [' ']).Ready := fun rd hp =>
    (Reader.advance_mark_ready hp rfl).advance_blank _
  simp only [List.mem_cons, List.not_mem_nil, or_false] at hs
  rcases hs with rfl | rfl
  · exact ⟨_, _, fun w => .spacedEquals, ⟨rfl, rfl⟩, hready rd hp⟩
  · have hread : ∀ w, Reads w rd ([' '] ++ ['=', ' ']) ([] ++ [_]) _ := fun w =>
      Reads.space.append .spacedEquals
    exact ⟨_, _, hread, ⟨rfl, rfl⟩, hready _ (Nat.le_trans hp (rd.line_le_advance .blank [' ']))⟩

theorem Exports.statements {x : String} {e kw name : Token} (h : Exports x e kw name)
    (hne : x ≠ "enum") {us : List Token} {bound : List Binding} {rest : List Placed}
    (hb : bindings (place (some kw) (name :: us)) = (bound, rest)) :
    statements 0 (place none (e :: kw :: name :: us))
      = .bindings true "const" bound :: Source.statements 0 rest := by
  have hx : ∀ t, some e = some t → t.isExport := by
    rintro _ ⟨⟩
    exact h.isExport
  have hs := statements_bindings isStart_none hx h.keyword h.name_kind
    (by rw [h.name_text]; exact hne) hb
  rw [h.keyword_text] at hs
  exact hs

/-! ## Up to the end of the initializer -/

/-- The tokens `ts` of a line that starts at offset `o`, up to the end of its initializer. They are
taken as one statement together with what the expression goes on with behind `last`. -/
structure Line.Taken (l : Line) (o : Nat) (ts : List Token) (last : Token) : Prop where
  starts : ∃ t, ts.head? = some t ∧ t.isWordOf ("export" :: bindingKeywords) = true
  whole : Whole 0 ts
  ends : ts.getLast? = some last
  same : ∃ t o' n, (tokens l.initializer).getLast? = some t ∧ last = t.moved o' n
  stop : last.stop = o + l.opening.length + l.initializer.length
  statements : ∀ {before : Option Token} {us more : List Token} {rest : List Placed},
    IsStart before → splitExpression 0 (place (some last) us) = (more, rest) →
    nextIs rest "," = false → (∀ t, more.getLast? = some t → t.isBreak = false) →
    ∃ line, Source.statements 0 (place before (ts ++ us))
      = .bindings l.exported l.keyword [⟨l.name, line,
          some (o + l.opening.length, (more.getLast?.getD last).stop)⟩] :: Source.statements 0 rest

theorem Line.Opened.whole {l : Line} {ts us : List Token} {x : Option Token} {kw name eq : Token}
    (h : l.Opened ts x kw name eq) (hus : Whole 0 us) : Whole 0 (ts ++ us) := by
  have hword : ∀ {t : Token} {vs : List Token}, t.kind = .word → Whole 0 vs → Whole 0 (t :: vs) := by
    intro t vs ht hvs
    refine hvs.cons ?_ ?_
    · simp [Token.nest?, Token.opens_of_word ht, Token.closes_of_word ht]
    · simp [Token.separates, Token.isMarkOf_of_word ht, Token.isBreak_of_word ht]
  have heq : Whole 0 (eq :: us) := by
    obtain ⟨hk, ht⟩ := h.isEquals
    refine hus.cons ?_ ?_ <;>
      simp [Token.nest?, Token.opens, Token.closes, Token.separates, Token.isMarkOf, Token.isBreak,
        hk, ht]
  have hkw := hword (Token.kind_of_isWordOf h.keyword) (hword h.name_kind heq)
  rw [h.tokens]
  cases x with
  | none => exact hkw
  | some t => exact hword (h.isExport t rfl).1 hkw

theorem Line.Opened.starts {l : Line} {ts : List Token} {x : Option Token} {kw name eq : Token}
    (h : l.Opened ts x kw name eq) :
    ∃ t, ts.head? = some t ∧ t.isWordOf ("export" :: bindingKeywords) = true := by
  rw [h.tokens]
  cases x with
  | none =>
      have hkw := h.keyword
      simp only [Token.isWordOf, Bool.and_eq_true, List.contains_iff_mem] at hkw
      exact ⟨kw, rfl, by simp [Token.isWordOf, hkw]⟩
  | some t =>
      obtain ⟨hk, ht⟩ := h.isExport t rfl
      exact ⟨t, rfl, by simp [Token.isWordOf, hk, ht]⟩

/-- A line is read up to the end of its initializer in front of a seam. -/
theorem Line.Valid.reads {l : Line} (hl : l.Valid) (hp : 1 ≤ rd.line) (hw : Seam w) :
    ∃ ts rd' last, Reads w rd (l.opening ++ l.initializer.toList) ts rd' ∧ 1 ≤ rd'.line ∧
      rd'.behindBreak = false ∧ l.Taken rd.offset ts last := by
  obtain ⟨ts, x, kw, name, eq, rd₁, hopen, ho, hready⟩ :=
    hl.reads_opening (w := l.initializer.toList ++ w) hp
  obtain ⟨n, rd₂, hinit, hb⟩ := hl.complete.reads hw hready
  obtain ⟨first, hfirst, hfb, hstart⟩ := hl.complete.head?_moved rd₁.offset n
  obtain ⟨last, hlast, hlast₂, hlb, hstop⟩ := hl.complete.getLast?_moved rd₁.offset n
  have hwhole := hl.complete.whole_moved rd₁.offset n
  have hoff : rd₁.offset = rd.offset + l.opening.length := hopen.offset
  refine ⟨_, rd₂, last.moved rd₁.offset n, hopen.append hinit,
    Nat.le_trans hready.line_pos hinit.line_le, hb, ?_⟩
  generalize (tokens l.initializer).map (Token.moved rd₁.offset n) = init at *
  refine ⟨?_, ho.whole hwhole, by simp [hlast₂], ⟨last, _, _, hlast, rfl⟩, by rw [hstop, hoff], ?_⟩
  · obtain ⟨t, ht, hts⟩ := ho.starts
    exact ⟨t, by simp [ht], hts⟩
  intro before us more rest hbefore hsplit hcomma hmore
  have hi : Initializes eq (init ++ us) (init ++ more) rest := by
    refine ⟨?_, hcomma⟩
    rw [place_append, splitExpression_whole hwhole, hlast₂, Option.some_or, hsplit]
  generalize last.moved rd₁.offset n = last' at *
  have hextent : extentOf (init ++ more)
      = some (rd.offset + l.opening.length, (more.getLast?.getD last').stop) := by
    rw [← hoff, ← hstart]
    refine extentOf_eq (by simp [hfirst]) hfb (by cases hm : more.getLast? <;> simp [hm, hlast₂]) ?_
    cases hm : more.getLast? with
    | none => exact hlb
    | some t => exact hmore t hm
  have h := statements_binding hbefore ho.isExport ho.keyword ho.name_kind
    (by rw [ho.name_text]; exact hl.name_ne) ho.isEquals hi
  rw [hextent, ho.exported, ho.keyword_text, ho.name_text] at h
  refine ⟨name.line, ?_⟩
  rw [ho.tokens, ← h]
  simp

/-! ## From statements to declarations -/

def Declaration.printed (d : Declaration) : String × String × Option String × Option String :=
  (d.name, d.keyword, d.initializer, d.exportName)

theorem slice_append (pre : List Char) (e : String) (suf : List Char) :
    slice (pre ++ (e.toList ++ suf)) pre.length (pre.length + e.length) = e := by
  simp [slice, ← String.length_toList]

/-- Where no clause stands, a name is exported by its own statement or not at all. -/
theorem aliasOf_of_no_clause {ss : List Statement} (h : ∀ s ∈ ss, ∀ entries, s ≠ .clause entries)
    (name : String) : aliasOf name ss = none := by
  have hn : aliases name ss = [] := by
    rw [aliases, List.flatMap_eq_nil_iff]
    intro s hs
    cases s with
    | clause entries => exact absurd rfl (h _ hs entries)
    | bindings | passedOn => rfl
  simp [aliasOf, hn]

/-- The statement that a line of a module stands for. -/
def Line.Stands (source : List Char) (l : Line) (s : Statement) : Prop :=
  ∃ line start stop, s = .bindings l.exported l.keyword [⟨l.name, line, some (start, stop)⟩] ∧
    slice source start stop = l.initializer

variable {source : List Char} {ls : List Line} {ss all : List Statement}

theorem not_clause_of_stands (h : List.Forall₂ (Line.Stands source) ls ss) :
    ∀ s ∈ ss, ∀ entries, s ≠ .clause entries := by
  induction h with
  | nil => simp
  | cons hs _ ih =>
      obtain ⟨_, _, _, rfl, _⟩ := hs
      simpa using ih

theorem printed_of_stands (h : List.Forall₂ (Line.Stands source) ls ss)
    (ha : ∀ name, aliasOf name all = none) :
    (ss.flatMap (·.declarations source all)).map Declaration.printed = ls.map Line.printed := by
  induction h with
  | nil => rfl
  | cons hs _ ih =>
      obtain ⟨_, _, _, rfl, hslice⟩ := hs
      rw [List.flatMap_cons, List.map_append, ih]
      simp [Statement.declarations, Declaration.printed, Line.printed, hslice, ha]

/-- A module whose statements are those of some lines declares what these lines print. -/
theorem declarations_of_stands {text : String}
    (h : List.Forall₂ (Line.Stands text.toList) ls (statementsOf text)) :
    (declarations text).map Declaration.printed = ls.map Line.printed :=
  printed_of_stands h (aliasOf_of_no_clause (not_clause_of_stands h))

end TableRoster.Source
