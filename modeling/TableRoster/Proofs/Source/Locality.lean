import TableRoster.Proofs.Source.Lines
import TableRoster.Proofs.Source.Relocation
import TableRoster.Proofs.Source.Settled

/-! # Modules behind one another

Where a text ends a statement, what it declares and what another text declares stand behind one
another in the two texts together, whatever the other text is. -/

namespace TableRoster.Source

variable {rd : Reader} {s : List Char} {t : Token}

/-! ## What a token is read from -/

theorem startsWord_of_next {k : Bool} {c : Char} {r rest : List Char}
    (h : Element.next k c r = (.token .word, rest)) : startsWord c = true := by
  unfold Element.next at h
  repeat' split at h
  all_goals first
    | assumption
    | simp at h

theorem opens_of_is_brace (h : t ∈ lex rd s) (hb : t.is "\x7b" = true) : t.opens = true := by
  obtain ⟨rd', c, r, x, rest, e, hn, hsplit, hle, _, ht⟩ := mem_lex h
  simp only [Token.is, Bool.and_eq_true, Bool.or_eq_true, beq_iff_eq] at hb
  obtain ⟨hk | hk, htext⟩ := hb
  · rcases Reader.token?_cases ht with ⟨hbreak, _⟩ | ⟨k, rfl, rfl⟩
    · simp [Token.isBreak, hk] at hbreak
    · obtain rfl : k = .word := hk
      have hx : x = ['\x7b'] := by
        have := congrArg String.toList htext
        simpa [Reader.tokenOf] using this
      obtain rfl : c = '\x7b' := by
        rw [hx] at hsplit
        exact (List.cons.inj hsplit).1
      exact absurd (startsWord_of_next hn) (by decide)
  · simp [Token.opens, Token.isMarkOf, hk, htext]

/-- A token starts in front of the place behind it. -/
theorem Reads.start_lt {w : List Char} {ts : List Token} {rd' : Reader} (h : Reads w rd s ts rd')
    (ht : t ∈ ts) : t.start < rd'.offset := by
  induction h with
  | nil => cases ht
  | @cons rd rd' c r x s e ts next split rest ih =>
      rw [List.mem_append, Option.mem_toList] at ht
      rcases ht with ht | ht
      · have hlen := congrArg List.length split
        have hle := (Element.next_suffix rd.regexAllowed c (r ++ w)).length_le
        have hoff := rest.offset
        simp only [next, List.length_append, List.length_cons] at hlen hle
        simp only [Reader.advance] at hoff
        rw [Reader.token?_start ht]
        omega
      · exact ih ht

/-! ## A text that ends a statement -/

/-- A text that ends with a semicolon and a line break, where the semicolon is a token outside of all
brackets. No token of the text is an opening angle. -/
structure EndsStatement (a : String) : Prop where
  text : ∃ s : String, a = s ++ ";\n"
  semicolon : ∃ ts t us, tokens a = ts ++ t :: us ∧ t.kind = .mark ∧ t.text = ";" ∧
    t.start + 2 = a.length ∧ depthOf ts = 0
  no_angle : ∀ t ∈ tokens a, t.isMarkOf ["<"] = false

/-- A text that ends a statement is read by itself up to its last semicolon. -/
theorem EndsStatement.reads {a : String} (ha : EndsStatement a) :
    ∃ (s : List Char) (ts : List Token) (rd : Reader), a.toList = s ++ [';', '\n'] ∧
      Reads [';', '\n'] .start s ts rd ∧ depthOf ts = 0 ∧
      tokens a = ts ++ [rd.tokenOf .mark [';'],
        (rd.advance (.token .mark) [';']).tokenOf .lineBreak ['\n']] := by
  obtain ⟨s, hs⟩ := ha.text
  obtain ⟨ts, t, us, htokens, hkind, _, hstart, hdepth⟩ := ha.semicolon
  have hlist : a.toList = s.toList ++ [';', '\n'] := by simp [hs]
  have hmem : t ∈ lex .start (s.toList ++ [';', '\n']) := by
    rw [← hlist, ← tokens, htokens]
    simp
  have hlen : a.length = s.toList.length + 2 := by
    rw [← String.length_toList, hlist]
    simp
  obtain ⟨ts₀, rd, hreads⟩ := reads_of_mem hmem (by simp only [Reader.start]; omega)
  have hoff : rd.offset = s.toList.length := by simpa [Reader.start] using hreads.offset
  have htokens₀ : tokens a = ts₀ ++ [rd.tokenOf .mark [';'],
      (rd.advance (.token .mark) [';']).tokenOf .lineBreak ['\n']] := by
    have hend : lex rd [';', '\n'] = _ := (Reads.lineEnd (w := [])).lex_append
    rw [lex, List.append_nil] at hend
    rw [tokens, hlist, hreads.lex_append, hend]
  -- only one token starts at the semicolon's offset, so both ways to split the tokens are one
  have hts : ts = ts₀ := by
    rw [htokens₀] at htokens
    rcases List.append_eq_append_iff.1 htokens with ⟨m, rfl, hm⟩ | ⟨m, rfl, hm⟩
    · rcases m with _ | ⟨x, _ | ⟨y, m⟩⟩
      · simp
      · obtain rfl : _ = t := (List.cons.inj (List.cons.inj hm).2).1
        cases hkind
      · simp at hm
    · rcases m with _ | ⟨x, m⟩
      · simp
      · obtain rfl : t = x := (List.cons.inj hm).1
        have hlt := hreads.start_lt (t := t) (by simp)
        omega
  exact ⟨s.toList, ts₀, rd, hlist, hreads, hts ▸ hdepth, htokens₀⟩

/-! ## Statements behind one another -/

theorem settled_placeTo {ts : List Token} (hd : depthOf ts = 0)
    (ha : ∀ t ∈ ts, t.isMarkOf ["<"] = false) (hb : ∀ t ∈ ts, t.is "\x7b" = true → t.opens = true)
    (before next : Option Token) : Settled 0 (placeTo before next ts) := by
  have hmem : ∀ p ∈ placeTo before next ts, p.token ∈ ts := fun p hp =>
    map_token_placeTo before next ts ▸ List.mem_map_of_mem hp
  refine ⟨?_, fun p hp => ha _ (hmem p hp), fun p hp => hb _ (hmem p hp)⟩
  rw [← List.foldl_map (f := Placed.token) (g := Token.depthAfter), map_token_placeTo]
  exact hd

/-- Line breaks at the start of a text do not matter. -/
theorem statements_breaks {bs : List Token} (h : ∀ t ∈ bs, t.isBreak = true) (ts : List Token) :
    statements 0 (place none (bs ++ ts)) = statements 0 (place none ts) := by
  induction bs with
  | nil => rfl
  | cons b bs ih =>
      have hb := h b (by simp)
      rw [List.cons_append, statements_skip_break hb, statements_place_break hb]
      exact ih fun t ht => h t (by simp [ht])

/-- Behind the end of a line, the statements of a text are those of the text alone. -/
theorem statements_lex_lineEnd (rd : Reader) (b : String) :
    statements 0 (place rd.lineEnd.last (lex rd.lineEnd b.toList)) = (statementsOf b).map
      (Statement.relocate ⟨(· + rd.lineEnd.offset), (· + rd.lineEnd.offset), (· + rd.line)⟩) := by
  have hline : rd.lineEnd.line = Reader.start.line + rd.line := by
    simp [Reader.lineEnd, Reader.advance, Reader.linesOf, Reader.start, Nat.add_comm]
  obtain ⟨bs, us, hb, hbs, hlex⟩ := Reader.lex_behindBreak (Nat.zero_add _).symm hline rfl rfl b.toList
  rw [hlex, statementsOf, tokens, hb, statements_breaks hbs]
  exact statements_behind_break ⟨(· + rd.lineEnd.offset), (· + rd.lineEnd.offset), (· + rd.line)⟩ rfl 0 us

/-- A text whose statements are those of the text alone, whatever stands behind it, and behind which
other statements only move. -/
def StaysApart (a : String) : Prop :=
  ∃ l, ∀ b, statementsOf (a ++ b) = statementsOf a ++
    (statementsOf b).map (Statement.relocate ⟨(· + a.length), (· + a.length), (· + l)⟩)

theorem staysApart_empty : StaysApart "" := by
  refine ⟨0, fun b => ?_⟩
  have hnone : statementsOf "" = [] := by simp [statementsOf, tokens, lex, place, statements]
  rw [String.empty_append, hnone, List.nil_append]
  exact ((List.map_congr_left fun s _ => s.relocate_id).trans (List.map_id _)).symm

/-- The statements in front of the last semicolon do not depend on what stands behind it. -/
theorem EndsStatement.statements_front {a : String} (ha : EndsStatement a) {ts : List Token}
    (hd : depthOf ts = 0) (hmem : ∀ t ∈ ts, t ∈ tokens a) {semi : Token}
    (hs : semi.kind = .mark ∧ semi.text = ";") :
    ∃ ss, ∀ rest, statements 0 (place none (ts ++ semi :: rest))
      = ss ++ statements 0 (place (some semi) rest) := by
  have hsettled := settled_placeTo hd (fun t h => ha.no_angle t (hmem t h))
    (fun t h => opens_of_is_brace (hmem t h)) none (some semi)
  obtain ⟨ss, hss⟩ := statements_semicolon hsettled
  refine ⟨ss, fun rest => ?_⟩
  rw [place_append, List.head?_cons, place, hss _ _ ⟨hs.1, hs.2⟩]

theorem EndsStatement.staysApart {a : String} (ha : EndsStatement a) : StaysApart a := by
  obtain ⟨s, ts, rd, hlist, hreads, hdepth, htokens⟩ := ha.reads
  have hsemi : (rd.tokenOf .mark [';']).kind = .mark ∧ (rd.tokenOf .mark [';']).text = ";" := ⟨rfl, rfl⟩
  obtain ⟨ss, hss⟩ := ha.statements_front hdepth (fun t h => htokens ▸ List.mem_append_left _ h) hsemi
  have hend : ∀ rest, statements 0 (place none (ts ++ ([rd.tokenOf .mark [';'],
      (rd.advance (.token .mark) [';']).tokenOf .lineBreak ['\n']] ++ rest)))
      = ss ++ statements 0 (place rd.lineEnd.last rest) := by
    intro rest
    rw [List.cons_append, hss, List.cons_append, statements_skip_break rfl]
    rfl
  have halone : statementsOf a = ss := by
    have hnil : statements 0 (place rd.lineEnd.last []) = [] := by rw [place, statements]
    rw [statementsOf, htokens, ← List.append_nil [_, _], hend, hnil, List.append_nil]
  have hoffset : rd.lineEnd.offset = a.length := by
    have hlast : rd.lineEnd.offset = rd.offset + 2 := (Reads.lineEnd (w := [])).offset
    rw [hlast, hreads.offset, ← String.length_toList, hlist, List.length_append, Reader.start,
      Nat.zero_add]
    rfl
  refine ⟨rd.line, fun b => ?_⟩
  have hall : (a ++ b).toList = s ++ (';' :: '\n' :: b.toList) := by simp [hlist]
  have hline : lex rd (';' :: '\n' :: b.toList) = _ := (Reads.lineEnd (w := b.toList)).lex_append
  rw [statementsOf, tokens, hall, (hreads.seam (seam_semicolon b.toList)).lex_append, hline, hend,
    statements_lex_lineEnd, halone, hoffset]

/-! ## Declarations behind one another -/

theorem slice_append_left {a b : List Char} {start stop : Nat} (h : stop ≤ a.length) :
    slice (a ++ b) start stop = slice a start stop := by
  unfold slice
  rcases Nat.le_total start a.length with hs | hs
  · rw [List.drop_append_of_le_length hs, List.take_append_of_le_length]
    rw [List.length_drop]
    omega
  · rw [Nat.sub_eq_zero_of_le (Nat.le_trans h hs), List.take_zero, List.take_zero]

theorem slice_append_right (a b : List Char) (start stop : Nat) :
    slice (a ++ b) (start + a.length) (stop + a.length) = slice b start stop := by
  unfold slice
  rw [Nat.add_comm start, ← List.drop_drop, List.drop_left, Nat.add_comm a.length,
    Nat.add_sub_add_right]

/-- What a declaration has by itself, whatever else its module exports. -/
def Declaration.content (d : Declaration) : String × String × Option String :=
  (d.name, d.keyword, d.initializer)

variable {a b : List Char} {all all' : List Statement}

theorem content_declarations (source : List Char) (s : Statement) (all all' : List Statement) :
    (s.declarations source all).map Declaration.content
      = (s.declarations source all').map Declaration.content := by
  cases s with
  | clause | passedOn => rfl
  | bindings => simp [Statement.declarations, Declaration.content]

theorem content_flatMap (source : List Char) (ss all all' : List Statement) :
    (ss.flatMap (·.declarations source all)).map Declaration.content
      = (ss.flatMap (·.declarations source all')).map Declaration.content := by
  rw [List.map_flatMap, List.map_flatMap]
  exact List.flatMap_congr fun s _ => content_declarations source s all all'

theorem declarations_within {s : Statement} (h : s.Within a.length) :
    s.declarations (a ++ b) all = s.declarations a all := by
  cases s with
  | clause | passedOn => rfl
  | bindings exported keyword bound =>
      refine List.map_congr_left fun x hx => ?_
      cases hx' : x.extent with
      | none => rfl
      | some e => simp [slice_append_left (h x hx e hx')]

theorem printed_declarations_relocate (s : Statement) (l : Nat → Nat) :
    ((s.relocate ⟨(· + a.length), (· + a.length), l⟩).declarations (a ++ b) all).map
        Declaration.printed
      = (s.declarations b all).map Declaration.printed := by
  cases s with
  | clause | passedOn => rfl
  | bindings exported keyword bound =>
      simp only [Statement.relocate, Statement.declarations, List.map_map]
      refine List.map_congr_left fun x _ => ?_
      cases hx : x.extent with
      | none => simp [Declaration.printed, Binding.relocate, hx]
      | some e =>
          simp [Declaration.printed, Binding.relocate, Relocation.extent, hx, slice_append_right]

theorem aliases_relocate (g : Relocation) (name : String) (ss : List Statement) :
    aliases name (ss.map (Statement.relocate g)) = aliases name ss := by
  rw [aliases, aliases, List.flatMap_map]
  refine List.flatMap_congr fun s _ => ?_
  cases s <;> rfl

theorem aliasOf_relocate (g : Relocation) (name : String) (ss : List Statement) :
    aliasOf name (ss.map (Statement.relocate g)) = aliasOf name ss := by
  rw [aliasOf, aliasOf, aliases_relocate]

theorem aliases_append (name : String) (ss ss' : List Statement) :
    aliases name (ss ++ ss') = aliases name ss ++ aliases name ss' :=
  List.flatMap_append

theorem Statement.declarations_congr {source : List Char} {all all' : List Statement}
    (h : ∀ name, aliasOf name all = aliasOf name all') (s : Statement) :
    s.declarations source all = s.declarations source all' := by
  cases s with
  | clause | passedOn => rfl
  | bindings => simp only [Statement.declarations, h]

/-- A text without a clause that exports names of its own. -/
def NoClause (text : String) : Prop :=
  ∀ s ∈ statementsOf text, ∀ entries, s ≠ .clause entries

theorem NoClause.append {a b : String} (ha : StaysApart a) (hna : NoClause a)
    (hnb : NoClause b) : NoClause (a ++ b) := by
  obtain ⟨l, hl⟩ := ha
  intro s hs entries
  rw [hl b, List.mem_append, List.mem_map] at hs
  rcases hs with hs | ⟨s, hs, rfl⟩
  · exact hna s hs entries
  · cases s with
    | clause entries => exact absurd rfl (hnb _ hs entries)
    | bindings | passedOn => nofun

theorem StaysApart.printed_append {a : String} (ha : StaysApart a) (b : String) :
    (declarations (a ++ b)).map Declaration.printed
      = ((statementsOf a).flatMap (·.declarations a.toList (statementsOf (a ++ b)))).map
          Declaration.printed
        ++ ((statementsOf b).flatMap (·.declarations b.toList (statementsOf (a ++ b)))).map
          Declaration.printed := by
  obtain ⟨l, hl⟩ := ha
  have hwithin : ∀ s ∈ statementsOf a, s.Within a.toList.length :=
    statements_within (fun t ht => by simpa [Reader.start] using mem_lex_stop ht) 0 none
  have hleft : (statementsOf a).flatMap (·.declarations (a ++ b).toList (statementsOf (a ++ b)))
      = (statementsOf a).flatMap (·.declarations a.toList (statementsOf (a ++ b))) := by
    rw [String.toList_append]
    exact List.flatMap_congr fun s hs => declarations_within (hwithin s hs)
  rw [declarations]
  conv_lhs => rw [hl b, List.flatMap_append, ← hl b, List.map_append, hleft]
  congr 1
  rw [List.flatMap_map, List.map_flatMap, List.map_flatMap, String.toList_append,
    ← String.length_toList]
  exact List.flatMap_congr fun s _ => printed_declarations_relocate s _

/-- Where a text ends a statement, it declares what it declares alone, whatever stands behind it,
and what stands behind it declares what it declares alone. So it is with exported names, if neither
has a clause that exports names of the whole module. -/
theorem EndsStatement.declarations_append {a : String} (ha : EndsStatement a) (b : String) :
    (declarations (a ++ b)).map Declaration.content
        = (declarations a).map Declaration.content ++ (declarations b).map Declaration.content ∧
      (NoClause a → NoClause b → (declarations (a ++ b)).map Declaration.printed
        = (declarations a).map Declaration.printed ++ (declarations b).map Declaration.printed) := by
  have h := ha.staysApart.printed_append b
  constructor
  · have hcontent : ∀ ds : List Declaration, ds.map Declaration.content
        = (ds.map Declaration.printed).map fun d => (d.1, d.2.1, d.2.2.1) := by
      intro ds
      rw [List.map_map]
      rfl
    rw [hcontent, h, List.map_append, ← hcontent, ← hcontent, declarations, declarations,
      content_flatMap a.toList _ _ (statementsOf a), content_flatMap b.toList _ _ (statementsOf b)]
  · intro hna hnb
    have halias : ∀ text, NoClause text → ∀ name, aliasOf name (statementsOf (a ++ b))
        = aliasOf name (statementsOf text) := by
      intro text ht name
      rw [aliasOf_of_no_clause (NoClause.append ha.staysApart hna hnb), aliasOf_of_no_clause ht]
    have hall : ∀ text, NoClause text →
        (statementsOf text).flatMap (·.declarations text.toList (statementsOf (a ++ b)))
          = declarations text := by
      intro text ht
      refine List.flatMap_congr fun s _ => ?_
      cases s with
      | clause | passedOn => rfl
      | bindings => simp only [Statement.declarations, halias text ht]
    rw [h, hall a hna, hall b hnb]

/-- A binding, in front of one whose bracket is never closed. -/
theorem declarations_append_open_bracket :
    EndsStatement "export const a = f(1);\n" ∧
    (declarations ("export const a = f(1);\n" ++ "export let b = g(2;\n")).map Declaration.printed
      = [("a", "const", some "f(1)", some "a"), ("b", "let", some "g(2;", some "b")] := by
  have ha : EndsStatement "export const a = f(1);\n" := by
    refine ⟨⟨"export const a = f(1)", by decide⟩, ?_, by decide +kernel⟩
    exact ⟨(tokens "export const a = f(1);\n").take 8, ⟨.mark, ";", 21, 22, 1⟩,
      [⟨.lineBreak, "\n", 22, 23, 1⟩], by decide +kernel, rfl, rfl, by decide, by decide +kernel⟩
  refine ⟨ha, ((ha.declarations_append "export let b = g(2;\n").2 ?_ ?_).trans (by decide +kernel)⟩
  · have h : statementsOf "export const a = f(1);\n"
        = [.bindings true "const" [⟨"a", 1, some (17, 21)⟩]] := by decide +kernel
    simp [NoClause, h]
  · have h : statementsOf "export let b = g(2;\n"
        = [.bindings true "let" [⟨"b", 1, some (15, 19)⟩]] := by decide +kernel
    simp [NoClause, h]

end TableRoster.Source
