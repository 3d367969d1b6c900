import TableRoster.Proofs.Source.Clauses
import TableRoster.Proofs.Source.Element
import TableRoster.Proofs.Source.TopLevel

/-! # Where names come from

The names of bindings are words of the module. The names that clauses give are words of the module too, or
the insides of strings. -/

namespace TableRoster.Source

open Text

variable {s : Statement} {t : Token} {ts : List Token} {ps qs rest : List Placed} {d : Nat} {name w : String}
  {ws : List String} {source : String}

/-! ## Words -/

/-- A text that is a single word, from its start to its end. -/
def IsName (n : String) : Prop :=
  tokens n = [⟨.word, n, 0, n.length, 1⟩]

/-- A token of the class of words is a word. -/
theorem isWordText_of_mem_lex {rd : Reader} {text : List Char} (h : t ∈ lex rd text) (hk : t.kind = .word) :
    isWordText t.text.toList = true := by
  obtain ⟨rd', c, r, x, rest, e, hn, hsplit, _, _, ht⟩ := mem_lex h
  rcases Reader.token?_cases ht with ⟨hbreak, _⟩ | ⟨k, rfl, rfl⟩
  · rw [Token.isBreak_of_word hk] at hbreak
    cases hbreak
  · obtain rfl : k = .word := hk
    rw [Reader.tokenOf, String.toList_ofList]
    cases Element.next_starts hn with
    | word hstart =>
      have hword : c :: r = (c :: r.takeWhile continuesWord) ++ r.dropWhile continuesWord := by simp
      rw [hword] at hsplit
      rw [← List.append_cancel_right hsplit]
      simp only [isWordText, hstart, Bool.true_and, List.all_eq_true]
      exact fun c hc => List.mem_takeWhile_imp hc

theorem isName_iff {n : String} : IsName n ↔ isWordText n.toList = true := by
  constructor
  · intro h
    have hmem : (⟨.word, n, 0, n.length, 1⟩ : Token) ∈ tokens n := h ▸ List.mem_singleton_self _
    exact isWordText_of_mem_lex hmem rfl
  · intro h
    have hread : Reads [] .start n.toList [Reader.start.tokenOf .word n.toList] _ := .word h rfl
    rw [IsName, hread.tokens]
    simp [Reader.tokenOf, Reader.start, String.length_toList]

/-! ## Statements -/

theorem bindingStatement?_suffix {e : Bool} (h : bindingStatement? e ps = some (s, rest)) :
    (∃ keyword bound, s = .bindings e keyword bound) ∧ rest <:+ ps := by
  unfold bindingStatement? at h
  split at h
  · cases h
  · dsimp only at h
    split at h
    · cases h
      exact ⟨⟨_, _, rfl⟩, (bindings_suffix _).trans ((skipBreaks_suffix _).trans (List.suffix_cons _ _))⟩
    · cases h

/-- A statement is one of bindings, or what is read of a clause. -/
theorem statement?_suffix (h : statement? ps = some (s, rest)) :
    ((∃ e keyword bound, s = .bindings e keyword bound) ∨ ∃ qs, qs <:+ ps ∧ s = (exportClause qs).1)
      ∧ rest <:+ ps := by
  unfold statement? at h
  split at h
  · have hsuffix := (skipBreaks_suffix ps.tail).trans (List.tail_suffix ps)
    dsimp only at h
    split at h
    · obtain ⟨rfl, rfl⟩ : (exportClause (skipBreaks ps.tail).tail).1 = s ∧ _ = rest :=
        Prod.mk.inj (Option.some.inj h)
      have htail := (List.tail_suffix _).trans hsuffix
      exact ⟨.inr ⟨_, htail, rfl⟩, (exportClause_suffix _).trans htail⟩
    · split at h
      · cases h
      · obtain ⟨⟨keyword, bound, rfl⟩, hrest⟩ := bindingStatement?_suffix h
        exact ⟨.inl ⟨_, _, _, rfl⟩, hrest.trans ((skipDeclare_suffix _).trans hsuffix)⟩
  · obtain ⟨⟨keyword, bound, rfl⟩, hrest⟩ := bindingStatement?_suffix h
    exact ⟨.inl ⟨_, _, _, rfl⟩, hrest.trans (skipDeclare_suffix _)⟩

/-- A clause among the statements of a row is read from tokens of the row. -/
theorem clause_of_mem_statements {entries : List (String × String)}
    (h : .clause entries ∈ statements d ps) :
    ∃ ts, (∀ t ∈ ts, t ∈ ps.map Placed.token) ∧ entries = (clauseWords ts).filterMap clauseEntry := by
  have hwiden : ∀ {ps qs : List Placed}, qs <:+ ps → (∃ ts, (∀ t ∈ ts, t ∈ qs.map Placed.token) ∧
      entries = (clauseWords ts).filterMap clauseEntry) → ∃ ts, (∀ t ∈ ts, t ∈ ps.map Placed.token) ∧
      entries = (clauseWords ts).filterMap clauseEntry := fun hsuffix ⟨ts, hts, he⟩ =>
    ⟨ts, fun t ht => List.map_subset _ hsuffix.subset (hts t ht), he⟩
  fun_induction statements d ps with
  | case1 => cases h
  | case2 d p qs _ ih | case3 d p qs _ _ ih | case5 d p qs _ _ _ _ ih | case6 d p qs _ _ _ ih =>
    exact hwiden (List.suffix_cons _ _) (ih h)
  | case4 d p qs _ _ _ s rest hs ih =>
    obtain ⟨hkind, hrest⟩ := statement?_suffix hs
    rcases List.mem_cons.1 h with rfl | h
    · obtain ⟨_, _, _, hs⟩ | ⟨rs, hsuffix, hs⟩ := hkind
      · cases hs
      · refine hwiden hsuffix ⟨(splitGroup 1 rs).1.dropLast, fun t ht => ?_, ?_⟩
        · rw [← splitGroup_append 1 rs]
          exact List.mem_append_left _ (List.dropLast_subset _ ht)
        · unfold exportClause at hs
          dsimp only at hs
          split at hs <;> cases hs
          rfl
    · exact hwiden hrest (ih h)

/-! ## Names of bindings -/

theorem name_of_mem_bound {b : Binding} (hs : s ∈ statementsOf source) (hb : b ∈ s.bound) :
    isWordText b.name.toList = true := by
  have htokens : tokens source = [] ++ (place none (tokens source)).map Placed.token :=
    (map_token_place none _).symm
  obtain ⟨xs, hxs⟩ := statements_sited (fun t ht => opens_of_is_brace ht) htokens (.inr rfl)
  have hmem : b ∈ (statementsOf source).flatMap Statement.bound := List.mem_flatMap.2 ⟨s, hs, hb⟩
  have hword : ∀ b x, Site.Holds (tokens source) b x →
      isWordText b.name.toList = true ∧ Site.Holds (tokens source) b x := fun b x hx => by
    obtain ⟨t, ht, hk, hname, -⟩ := hx.name
    exact ⟨hname ▸ isWordText_of_mem_lex (List.mem_of_getElem? ht) hk, hx⟩
  exact ((List.forall₂_and_left _ _).1 (hxs.holds.imp hword)).1 b hmem

/-! ## Names that clauses give -/

theorem mem_clauseWords (hws : ws ∈ clauseWords ts) (hw : w ∈ ws) :
    ∃ t ∈ ts, t.text = w ∧ (t.kind = .word ∨ t.kind = .string) := by
  induction ts generalizing ws with
  | nil =>
    obtain rfl : ws = [] := by simpa [clauseWords] using hws
    cases hw
  | cons t ts ih =>
    have hlater : ∀ {ws}, ws ∈ clauseWords ts → w ∈ ws →
        ∃ u ∈ t :: ts, u.text = w ∧ (u.kind = .word ∨ u.kind = .string) := by
      intro ws hws hw
      obtain ⟨u, hu, h⟩ := ih hws hw
      exact ⟨u, List.mem_cons_of_mem _ hu, h⟩
    unfold clauseWords at hws
    split at hws
    · obtain rfl := List.mem_singleton.1 hws
      cases hw
    · rename_i vs rest hvs
      have hfirst : vs ∈ clauseWords ts := hvs ▸ List.mem_cons_self
      have hrest : ∀ {ws}, ws ∈ rest → ws ∈ clauseWords ts := fun h => hvs ▸ List.mem_cons_of_mem _ h
      split at hws
      · obtain rfl | hws := List.mem_cons.1 hws
        · cases hw
        · exact hlater (hvs ▸ hws) hw
      · split at hws
        · rename_i hk
          obtain rfl | hws := List.mem_cons.1 hws
          · obtain rfl | hw := List.mem_cons.1 hw
            · exact ⟨t, List.mem_cons_self, rfl, hk⟩
            · exact hlater hfirst hw
          · exact hlater (hrest hws) hw
        · exact hlater (hvs ▸ hws) hw

/-- A clause of a module that gives a name by a string. -/
def QuotedAlias (source name given : String) : Prop :=
  ∃ entries, .clause entries ∈ statementsOf source ∧ (name, given) ∈ entries ∧
    ∃ t ∈ tokens source, t.kind = .string ∧ given = String.ofList (clauseEntry.unquote t.text.toList)

/-- What a clause gives a name that is a word is a word as well, if it is not given by a string. -/
theorem alias_of_mem_clause {entries : List (String × String)} {given : String}
    (hs : .clause entries ∈ statementsOf source) (he : (name, given) ∈ entries)
    (hname : isWordText name.toList = true) :
    isWordText given.toList = true ∨ QuotedAlias source name given := by
  obtain ⟨ts, hts, hentries⟩ := clause_of_mem_statements hs
  rw [map_token_place] at hts
  have hmem := hentries ▸ he
  obtain ⟨ws, hws, hentry⟩ := List.mem_filterMap.1 hmem
  unfold clauseEntry at hentry
  split at hentry
  · obtain ⟨rfl, rfl⟩ := Prod.mk.inj (Option.some.inj hentry)
    exact .inl hname
  · rename_i x y
    split at hentry
    · cases hentry
    obtain ⟨rfl, rfl⟩ := Prod.mk.inj (Option.some.inj hentry)
    obtain ⟨t, ht, htext, hk | hk⟩ := mem_clauseWords hws (w := y) (by simp)
    · have hword : isWordText y.toList = true := htext ▸ isWordText_of_mem_lex (hts t ht) hk
      exact .inl (by rwa [unquote_of_isWordText hword])
    · exact .inr ⟨entries, hs, he, t, hts t ht, hk, by rw [htext]⟩
  · cases hentry

/-- The name that a declaration is exported by is its own, or given by a string, or another word. -/
theorem exportName_of_mem_declarations {dec : Declaration} (hd : dec ∈ declarations source) {y : String}
    (hy : dec.exportName = some y) : isWordText y.toList = true ∨ QuotedAlias source dec.name y := by
  obtain ⟨s, hs, hdec⟩ := List.mem_flatMap.1 hd
  cases s with
  | clause | passedOn => cases hdec
  | bindings exported keyword bound =>
    obtain ⟨b, hb, rfl⟩ := List.mem_map.1 hdec
    have hname : isWordText b.name.toList = true := name_of_mem_bound hs hb
    dsimp only at hy ⊢
    split at hy
    · obtain rfl := Option.some.inj hy
      exact .inl hname
    · have hgiven : y ∈ aliases b.name (statementsOf source) := by
        unfold aliasOf at hy
        dsimp only at hy
        rcases Option.or_eq_some_iff.1 hy with hfind | ⟨-, hhead⟩
        · exact List.mem_of_find?_eq_some hfind
        · exact List.mem_of_mem_head? hhead
      obtain ⟨c, hc, hmem⟩ := List.mem_flatMap.1 hgiven
      cases c with
      | bindings | passedOn => cases hmem
      | clause entries =>
        obtain ⟨⟨x, z⟩, he, rfl⟩ := List.mem_map.1 hmem
        obtain ⟨he, hx⟩ := List.mem_filter.1 he
        obtain rfl : x = b.name := by simpa using hx
        exact alias_of_mem_clause hc he hname

end TableRoster.Source
