import TableRoster.Proofs.Source.LineEnd
import TableRoster.Proofs.Source.Pieces
import TableRoster.Text.Blank

/-! # Blanks and comments around statements

What stands in front of the statements of a module without making a token, and blanks behind its last
semicolon, change nothing of what the module declares. -/

namespace TableRoster.Source

open Text

variable {rd rd' : Reader} {s w : List Char} {ts : List Token} {a : String}

/-! ## Texts that make line breaks alone -/

/-- A row of line breaks. -/
def Breaks (ts : List Token) : Prop :=
  ∀ t ∈ ts, t.isBreak = true

instance : Joins Breaks := ⟨nofun, fun h h' => List.forall_mem_append.2 ⟨h, h'⟩⟩

theorem breaks_single (t : Token) (h : t.isBreak = true) : Breaks [t] :=
  List.forall_mem_singleton.2 h

/-- The codes of blanks. -/
def blankCodes : List Nat :=
  List.range' 0x09 5 ++ List.range' 0x1C 5 ++ [0x85, 0xA0, 0x1680] ++ List.range' 0x2000 11
    ++ [0x2028, 0x2029, 0x202F, 0x205F, 0x3000]

theorem toNat_mem_blankCodes {c : Char} (h : isBlank c = true) : c.toNat ∈ blankCodes := by
  simp only [isBlank, Bool.or_eq_true, Bool.and_eq_true, decide_eq_true_eq, beq_iff_eq] at h
  simp only [blankCodes, List.mem_append, List.mem_range'_1, List.mem_cons, List.not_mem_nil, or_false]
  omega

/-- A character that is an element of its own, and that makes no token but a line break. -/
def isSilent (c : Char) : Bool :=
  c == '\n' || blanks.contains c
    || (isPlain c && !startsWord c && !isDecimal c && marks.all (·.head? != some c))

theorem isSilent_of_isBlank {c : Char} (h : isBlank c = true) : isSilent c = true ∧ c ≠ '/' := by
  have hall : ∀ n ∈ blankCodes, isSilent (Char.ofNat n) = true ∧ Char.ofNat n ≠ '/' := by decide +kernel
  have hc := hall c.toNat (toNat_mem_blankCodes h)
  rwa [Char.ofNat_toNat] at hc

theorem markAt?_eq_none {c : Char} (h : marks.all (·.head? != some c) = true) (r : List Char) :
    markAt? (c :: r) = none := by
  have hne : [] ∉ marks := by decide
  rw [markAt?, List.find?_eq_none]
  intro m hm hprefix
  cases m with
  | nil => exact hne hm
  | cons d m =>
      obtain ⟨rfl, -⟩ := List.cons_prefix_cons.1 (List.isPrefixOf_iff_prefix.1 hprefix)
      simpa using List.all_eq_true.1 h _ hm

theorem closed_silent {c : Char} (h : isSilent c = true) : Closed Breaks [c] := by
  simp only [isSilent, Bool.or_eq_true, Bool.and_eq_true, beq_iff_eq, Bool.not_eq_true'] at h
  obtain (rfl | hblank) | ⟨⟨⟨hplain, hword⟩, hdecimal⟩, hmarks⟩ := h
  · exact closed_lineBreak breaks_single
  · have hc : c ≠ '\n' := by
      rintro rfl
      simp [blanks] at hblank
    exact closed_passed (e := .blank) (fun k r => by rw [Element.next, if_neg hc, if_pos hblank])
      (by simp)
      breaks_single
  · refine closed_passed (e := .stray) (fun k r => ?_) (by simp) breaks_single
    rw [Element.next_plain hplain, Element.plain, hword, hdecimal, markAt?_eq_none hmarks]
    simp

theorem closed_blanks (h : ∀ c ∈ s, isBlank c = true) : Closed Breaks s := by
  induction s with
  | nil => exact fun rd => ⟨[], rd, fun _ => .nil, Joins.nil⟩
  | cons c s ih =>
      obtain ⟨hc, hs⟩ := List.forall_mem_cons.1 h
      exact (closed_silent (isSilent_of_isBlank hc).1).append_closed (ih hs)

/-! ## In front of a module -/

theorem Reads.regexAllowed_of_breaks (h : Reads w rd s ts rd') (hts : Breaks ts) :
    rd'.regexAllowed = rd.regexAllowed := by
  induction h with
  | nil => rfl
  | @cons rd rd' c r x s e ts _ _ _ ih =>
      obtain ⟨ht, hts⟩ := List.forall_mem_append.1 hts
      rw [ih hts, Reader.advance_regexAllowed_of_break _ fun t h => ht t (by simp [h])]

/-- Behind line breaks alone, a text is read as at a start, but a line break at its start may be lost. -/
theorem Reads.lex_start (h : Reads w .start s ts rd) (hts : Breaks ts) :
    ∃ l bs us, lex .start w = bs ++ us ∧ Breaks bs ∧ lex rd w = us.map (Token.moved s.length l) := by
  have hoffset : rd.offset = Reader.start.offset + s.length := h.offset
  have hline : rd.line = Reader.start.line + (rd.line - 1) := by
    have hle : 1 ≤ rd.line := h.line_le
    simp only [Reader.start]
    omega
  have hregex := h.regexAllowed_of_breaks hts
  have hlast : rd.behindBreak = (ts.getLast?.or none).any (·.isBreak) := by
    rw [Reader.behindBreak, h.last]
    rfl
  cases hb : ts.getLast? with
  | none =>
      have hbehind : rd.behindBreak = Reader.start.behindBreak := by
        rw [hlast, hb]
        rfl
      exact ⟨_, [], lex .start w, rfl, Joins.nil, Reader.Moved.lex ⟨hoffset, hline, hregex, hbehind⟩ w⟩
  | some t =>
      have ht : t.isBreak = true := hts t (List.mem_of_getLast? hb)
      obtain ⟨bs, us, hall, hbs, hlex⟩ := Reader.lex_behindBreak hoffset hline hregex
        (by simpa [hb] using hlast.trans (by simp [hb, ht])) w
      exact ⟨_, bs, us, hall, hbs, hlex⟩

/-- The statements of a module move behind what stands in front of them. -/
theorem Closed.statementsOf_append (ha : Closed Breaks a.toList) (b : String) :
    ∃ l, statementsOf (a ++ b)
      = (statementsOf b).map (Statement.relocate ⟨(· + a.length), (· + a.length), (· + l)⟩) := by
  obtain ⟨ts, rd, hr, hts⟩ := ha .start
  obtain ⟨l, bs, us, hb, hbs, hlex⟩ := (hr b.toList).lex_start hts
  have hfront : tokens (a ++ b) = ts ++ us.map (Token.moved a.length l) := by
    rw [tokens, String.toList_append, (hr b.toList).lex_append, hlex, String.length_toList]
  refine ⟨l, ?_⟩
  rw [statementsOf, hfront, statements_breaks hts, statementsOf, tokens, hb, statements_breaks hbs]
  exact statements_relocate ⟨(· + a.length), (· + a.length), (· + l)⟩ 0 us

/-- Blanks and comments in front of a module change nothing of what it declares. -/
theorem Closed.declarations_behind (ha : Closed Breaks a.toList) (b : String) :
    (declarations (a ++ b)).map Declaration.printed = (declarations b).map Declaration.printed := by
  obtain ⟨l, hl⟩ := ha.statementsOf_append b
  have hall : ∀ s : Statement, s.declarations b.toList (statementsOf (a ++ b))
      = s.declarations b.toList (statementsOf b) := Statement.declarations_congr fun name => by
    rw [hl, aliasOf_relocate]
  have hmoved : declarations (a ++ b) = (statementsOf b).flatMap fun s =>
      (s.relocate ⟨(· + a.length), (· + a.length), (· + l)⟩).declarations (a ++ b).toList
        (statementsOf (a ++ b)) := by
    rw [← List.flatMap_map, ← hl]
    rfl
  rw [hmoved, declarations, List.map_flatMap, List.map_flatMap]
  refine List.flatMap_congr fun s _ => ?_
  rw [String.toList_append, ← String.length_toList, printed_declarations_relocate, hall]

/-! ## Behind a module -/

theorem statements_of_breaks (h : Breaks ts) (before : Option Token) :
    statements 0 (place before ts) = [] := by
  induction ts generalizing before with
  | nil => rw [place, statements]
  | cons t ts ih =>
      obtain ⟨ht, hts⟩ := List.forall_mem_cons.1 h
      rw [statements_skip_break ht, ih hts]

theorem seam_blanks (h : ∀ c ∈ s, isBlank c = true) : Seam (';' :: s) := by
  have hslash : '/' ∉ s := fun hmem => (isSilent_of_isBlank (h _ hmem)).2 rfl
  refine .intro (by decide) (afterRegex_of_no_slash ?_) (afterRegex_of_no_slash hslash)
  simp [hslash]

/-- Behind the last semicolon of a module, any blanks may stand. -/
theorem EndsStatement.declarations_blanks {m : String} (ha : EndsStatement (m ++ ";\n")) {z : String}
    (hz : ∀ c ∈ z.toList, isBlank c = true) :
    declarations (m ++ ";" ++ z) = declarations (m ++ ";\n") := by
  obtain ⟨s, ts, rd, hs, hr, hd, ht⟩ := ha.reads
  have hsemi : (rd.tokenOf .mark [';']).kind = .mark ∧ (rd.tokenOf .mark [';']).text = ";" := ⟨rfl, rfl⟩
  obtain ⟨ss, hss⟩ := ha.statements_front hd (fun t h => ht ▸ List.mem_append_left _ h) hsemi
  obtain rfl : s = m.toList := by
    have hbreak : (";\n" : String).toList = [';', '\n'] := by decide
    rw [String.toList_append, hbreak] at hs
    exact (List.append_cancel_right hs).symm
  -- whatever blanks stand behind the semicolon, the statements are those in front of it
  have hstatements : ∀ z : String, (∀ c ∈ z.toList, isBlank c = true) →
      statementsOf (m ++ ";" ++ z) = ss := by
    intro z hz
    have hmark : Reads z.toList rd [';'] _ _ :=
      .semicolon (markAt?_single (by decide) (by decide) z.toList)
    obtain ⟨us, rd', hus, hbreaks⟩ := closed_blanks hz (rd.advance (.token .mark) [';'])
    have hend := (hus []).lex_append
    rw [lex, List.append_nil, List.append_nil] at hend
    have htokens : tokens (m ++ ";" ++ z) = ts ++ rd.tokenOf .mark [';'] :: us := by
      have hall : (m ++ ";" ++ z).toList = m.toList ++ ';' :: z.toList := by simp
      have hrest : lex rd (';' :: z.toList) = _ := hmark.lex_append
      rw [tokens, hall, (hr.seam (seam_blanks hz)).lex_append, hrest, hend]
      rfl
    rw [statementsOf, htokens, hss, statements_of_breaks hbreaks, List.append_nil]
  have hwithin : ∀ s ∈ ss, s.Within (m ++ ";").toList.length := by
    have hnone := hstatements "" (by simp)
    rw [String.append_empty] at hnone
    rw [← hnone]
    exact statements_within (fun t ht => by simpa [Reader.start] using mem_lex_stop ht) 0 none
  have hdeclarations : ∀ z : String, (∀ c ∈ z.toList, isBlank c = true) →
      declarations (m ++ ";" ++ z) = ss.flatMap (·.declarations (m ++ ";").toList ss) := by
    intro z hz
    have hlist : (m ++ ";" ++ z).toList = (m ++ ";").toList ++ z.toList := String.toList_append
    rw [declarations, hstatements z hz, hlist]
    exact List.flatMap_congr fun s hs => declarations_within (hwithin s hs)
  have hline : m ++ ";\n" = m ++ ";" ++ "\n" := by
    rw [String.append_assoc]
    rfl
  have hbreak : ∀ c ∈ "\n".toList, isBlank c = true := List.forall_mem_singleton.2 (by decide)
  rw [hline, hdeclarations z hz, hdeclarations "\n" hbreak]

end TableRoster.Source
