import TableRoster.Proofs.Source.Passed

/-! # Export clauses

A clause names bindings wherever it stands, in front of them or behind. Of the names that the clauses of a
module give a binding, the first that is not `default` is the one it is exported by. Clauses that name
another module give no names. -/

namespace TableRoster.Source

open Text

/-! ## Entries -/

/-- An entry of a clause: a name, and the name it is given if that is another one. -/
structure Entry where
  name : String
  given : Option String

namespace Entry

def text (e : Entry) : String :=
  match e.given with
  | none => e.name
  | some y => e.name ++ " as " ++ y

/-- The name that the entry gives. -/
def outside (e : Entry) : String :=
  e.given.getD e.name

/-- The words that the entry is written with. -/
def words (e : Entry) : List String :=
  match e.given with
  | none => [e.name]
  | some y => [e.name, "as", y]

/-- An entry of a clause that exports values: a name behind `type` would be one of a type. -/
structure Valid (e : Entry) : Prop where
  name : isWordText e.name.toList = true
  given : ∀ y ∈ e.given, isWordText y.toList = true ∧ e.name ≠ "type"

variable {e : Entry}

theorem toList_text (e : Entry) : e.text.toList = [' '].intercalate (e.words.map String.toList) := by
  unfold text words
  cases e.given <;> simp

theorem Valid.words (he : e.Valid) : ∀ x ∈ e.words, isWordText x.toList = true := by
  unfold Entry.words
  cases hg : e.given with
  | none => simpa using he.name
  | some y =>
    simp only [List.forall_mem_cons]
    exact ⟨he.name, by decide, (he.given y hg).1, List.forall_mem_nil _⟩

end Entry

theorem unquote_of_isWordText {y : String} (hy : isWordText y.toList = true) :
    String.ofList (clauseEntry.unquote y.toList) = y := by
  have hquote : ∀ c ∈ y.toList, ¬ (c == '\x27' || c == '\x22') = true := by
    intro c hc hquoted
    simp only [Bool.or_eq_true, beq_iff_eq] at hquoted
    obtain rfl | rfl := hquoted
    · exact not_mem_of_isWordText hy (by decide) hc
    · exact not_mem_of_isWordText hy (by decide) hc
  have hfront : ∀ l : List Char, (∀ c ∈ l, c ∈ y.toList) →
      l.dropWhile (fun c => c == '\x27' || c == '\x22') = l := by
    intro l hl
    cases l with
    | nil => rfl
    | cons c l => exact List.dropWhile_cons_of_neg (hquote c (hl c List.mem_cons_self))
  rw [clauseEntry.unquote, hfront _ fun c hc => hc, hfront _ fun c hc => List.mem_reverse.1 hc,
    List.reverse_reverse, String.ofList_toList]

theorem clauseEntry_as {x y : String} (hx : x ≠ "type") (hy : isWordText y.toList = true) :
    clauseEntry [x, "as", y] = some (x, y) := by
  simp only [clauseEntry, if_neg hx, unquote_of_isWordText hy]

theorem Entry.Valid.clauseEntry_words {e : Entry} (he : e.Valid) :
    clauseEntry e.words = some (e.name, e.outside) := by
  unfold Entry.words Entry.outside
  cases hg : e.given with
  | none => rfl
  | some y =>
    obtain ⟨hy, hne⟩ := he.given y hg
    exact clauseEntry_as hne hy

/-! ## Rows of words -/

variable {rd : Reader} {s w x : List Char} {t c n : Token} {ts us : List Token} {e : Entry}
  {es es' : List Entry} {xs : List (List Char)} {before : Option Token}

/-- A row of word tokens with these texts. -/
structure Spells (xs : List String) (ts : List Token) : Prop where
  words : ∀ t ∈ ts, t.kind = .word
  texts : ts.map (·.text) = xs

theorem Spells.append {xs ys : List String} (h : Spells xs ts) (h' : Spells ys us) :
    Spells (xs ++ ys) (ts ++ us) :=
  ⟨List.forall_mem_append.2 ⟨h.words, h'.words⟩, by rw [List.map_append, h.texts, h'.texts]⟩

theorem closed_blank : Closed (· = []) [' '] :=
  fun _ => ⟨_, _, fun _ => .space, rfl⟩

/-- Words with blanks between them. -/
theorem makes_spaced (hne : xs ≠ []) (h : ∀ x ∈ xs, isWordText x = true) :
    Makes (Spells (xs.map String.ofList)) ([' '].intercalate xs) := by
  induction xs with
  | nil => exact absurd rfl hne
  | cons x xs ih =>
    obtain ⟨hx, hxs⟩ := List.forall_mem_cons.1 h
    have hfirst : Makes (Spells [String.ofList x]) x :=
      makes_word hx fun t hk ht => ⟨List.forall_mem_singleton.2 hk, by simp [ht]⟩
    cases xs with
    | nil => simpa using hfirst
    | cons y xs =>
      have hrest : Makes (Spells ((y :: xs).map String.ofList)) ([' '] ++ [' '].intercalate (y :: xs)) :=
        closed_blank.join (ih (by simp) hxs) fun hnil hus => by simpa [hnil] using hus
      rw [List.intercalate_cons_cons, List.append_assoc]
      exact hfirst.join hrest rfl Spells.append

/-! ## The words of a clause -/

theorem clauseWords_ne_nil (ts : List Token) : clauseWords ts ≠ [] := by
  cases ts with
  | nil => simp [clauseWords]
  | cons t ts =>
    unfold clauseWords
    split
    · simp
    · split
      · simp
      · split <;> simp

/-- A comma parts the words in front of it from those behind. -/
theorem clauseWords_append_comma (hc : c.isMarkOf [","] = true) (ts us : List Token) :
    clauseWords (ts ++ c :: us) = clauseWords ts ++ clauseWords us := by
  induction ts with
  | nil =>
    obtain ⟨ws, rest, hws⟩ := List.exists_cons_of_ne_nil (clauseWords_ne_nil us)
    simp [clauseWords, hws, hc]
  | cons t ts ih =>
    obtain ⟨ws, rest, hws⟩ := List.exists_cons_of_ne_nil (clauseWords_ne_nil ts)
    rw [List.cons_append, clauseWords, ih, hws, clauseWords, hws]
    simp only [List.cons_append]
    split
    · rfl
    · split <;> rfl

theorem Spells.clauseWords {xs : List String} (h : Spells xs ts) : clauseWords ts = [xs] := by
  induction ts generalizing xs with
  | nil =>
    obtain rfl : [] = xs := h.texts
    rfl
  | cons t ts ih =>
    obtain ⟨hk, hts⟩ := List.forall_mem_cons.1 h.words
    obtain rfl : t.text :: ts.map (·.text) = xs := h.texts
    rw [Source.clauseWords, ih ⟨hts, rfl⟩]
    simp [Token.isMarkOf_of_word hk, hk]

theorem Spells.balanced {xs : List String} (h : Spells xs ts) : Balanced ts :=
  (whole_of_calm fun t ht => Token.calm_of_word (h.words t ht)).nested

/-- A row of tokens that a clause reads as these entries. -/
structure Lists (es : List Entry) (ts : List Token) : Prop where
  balanced : Balanced ts
  entries : (clauseWords ts).filterMap clauseEntry = es.map fun e => (e.name, e.outside)

theorem Lists.append (h : Lists es ts) (hk : c.kind = .mark) (hc : c.text = ",") (h' : Lists es' us) :
    Lists (es ++ es') (ts ++ c :: us) := by
  have hcomma : c.isMarkOf [","] = true := by simp [Token.isMarkOf, hk, hc]
  have hcalm : c.nest? 0 = some 0 := by simp [Token.nest?, Token.opens, Token.closes, Token.isMarkOf, hk, hc]
  have hsingle : Balanced [c] := balanced_of_nest? hcalm
  refine ⟨Joins.append h.balanced (Joins.append hsingle h'.balanced), ?_⟩
  rw [clauseWords_append_comma hcomma, List.filterMap_append, h.entries, h'.entries, List.map_append]

theorem Entry.Valid.makes (he : e.Valid) : Makes (Lists [e]) e.text.toList := by
  have hwords : ∀ x ∈ e.words.map String.toList, isWordText x = true := by
    simpa using he.words
  have hne : e.words.map String.toList ≠ [] := by
    unfold Entry.words
    cases e.given <;> simp
  have hall := makes_spaced hne hwords
  rw [e.toList_text]
  intro rd
  obtain ⟨ts, rd', hr, hts⟩ := hall rd
  have hspells : Spells e.words ts := by simpa [Function.comp_def] using hts
  refine ⟨ts, rd', hr, hspells.balanced, ?_⟩
  rw [hspells.clauseWords]
  simp [he.clauseEntry_words]

/-- Entries with a comma and a blank between them. -/
theorem makes_entries (h : ∀ e ∈ es, e.Valid) :
    Makes (Lists es) ([',', ' '].intercalate (es.map (·.text.toList))) := by
  induction es with
  | nil => exact fun rd => ⟨[], rd, fun _ _ => .nil, rfl, rfl⟩
  | cons e es ih =>
    obtain ⟨he, hes⟩ := List.forall_mem_cons.1 h
    cases es with
    | nil => simpa using he.makes
    | cons e' es =>
      have hblank := closed_blank.join (R := Lists (e' :: es)) (ih hes) fun hnil hus => by
        simpa [hnil] using hus
      have hcomma : Makes (fun ts => ∃ c us, ts = c :: us ∧ c.kind = .mark ∧ c.text = "," ∧
          Lists (e' :: es) us) ([','] ++ ([' '] ++ _)) :=
        (closed_mark (Q := fun ts => ∃ c, ts = [c] ∧ c.kind = .mark ∧ c.text = ",") (by decide)
          fun t hk ht => ⟨t, rfl, hk, ht⟩).join hblank fun ⟨c, hts, hk, hc⟩ hus =>
            ⟨c, _, by rw [hts]; rfl, hk, hc, hus⟩
      rw [List.map_cons, List.map_cons, List.intercalate_cons_cons, List.append_assoc]
      refine he.makes.join hcomma rfl fun hts hus => ?_
      obtain ⟨c, us, rfl, hk, hc, hus⟩ := hus
      exact hts.append hk hc hus

/-! ## Clauses -/

/-- The text of a clause, without its end. -/
def clauseText (es : List Entry) : String :=
  "export \x7b " ++ ", ".intercalate (es.map Entry.text) ++ " \x7d"

/-- The tokens of a clause. -/
inductive Clause (es : List Entry) : List Token → Prop
  | mk {e o c : Token} {ts : List Token} (he : e.isExport) (ho : o.kind = .mark ∧ o.text = "\x7b")
      (hts : Lists es ts) (hc : c.kind = .mark ∧ c.text = "\x7d") : Clause es (e :: o :: (ts ++ [c]))

theorem closed_clause (h : ∀ e ∈ es, e.Valid) : Closed (Clause es) (clauseText es).toList := by
  intro rd
  have htext : (clauseText es).toList = "export ".toList ++ (['\x7b'] ++ ([' ']
      ++ ([',', ' '].intercalate (es.map (·.text.toList)) ++ ([' '] ++ ['\x7d'])))) := by
    simp [clauseText, String.toList_intercalate, Function.comp_def]
  obtain ⟨ts, rd', hr, hts⟩ := makes_entries h
    ((((rd.advance (.token .word) "export".toList).advance .blank [' ']).advance (.token .mark)
      ['\x7b']).advance .blank [' '])
  have hbraces : '\x7b' ∈ singleMarks ∧ '\x7d' ∈ singleMarks := by decide
  refine ⟨_, _, fun w => htext ▸ (reads_export _ rd).append ((reads_singleMark hbraces.1 _ _).append
    (Reads.space.append ((hr (' ' :: '\x7d' :: w) rfl).append
      (Reads.space.append (reads_singleMark hbraces.2 w _))))),
    .mk ⟨rfl, rfl⟩ ⟨rfl, rfl⟩ hts ⟨rfl, rfl⟩⟩

/-- A group is split off up to its closing bracket. -/
theorem splitGroup_balanced {d : Nat} (h : nesting? d ts = some 0) (hc : c.closes = true)
    (hco : c.opens = false) (us : List Token) :
    splitGroup (d + 1) (place before (ts ++ c :: us)) = (ts ++ [c], place (some c) us) := by
  induction ts generalizing d before with
  | nil =>
    obtain rfl : d = 0 := Option.some.inj h
    rw [List.nil_append, place, splitGroup]
    simp [hc, hco]
  | cons t ts ih =>
    rw [nesting?_cons] at h
    obtain ⟨d', hd, hts⟩ := Option.bind_eq_some_iff.1 h
    have hrest : splitGroup (d' + 1) (place (some t) (ts ++ c :: us)) = (ts ++ [c], place (some c) us) :=
      ih hts
    rw [List.cons_append, place, splitGroup]
    cases Token.nest?_eq_some.1 hd with
    | opens ho => simp [ho, hrest]
    | closes ho hc' => simp [ho, hc', hrest]
    | stays ho hc' => simp [ho, hc', hrest]

/-- What an export clause is depends on what stands behind it. Line breaks in front of its brace do not
matter. -/
theorem statement?_clause {e o z : Token} {bs : List Token} (he : e.isExport)
    (hbs : ∀ t ∈ bs, t.isBreak = true) (ho : o.kind = .mark ∧ o.text = "\x7b") (hts : Balanced ts)
    (hz : z.kind = .mark ∧ z.text = "\x7d") :
    statement? (place before (e :: (bs ++ o :: (ts ++ z :: us))))
      = some (if nextIs (skipBreaks (place (some z) us)) "from"
          then (.passedOn, (skipBreaks (place (some z) us)).tail)
          else (.clause ((clauseWords ts).filterMap clauseEntry), place (some z) us)) := by
  have hgroup : splitGroup 1 (place (some o) (ts ++ z :: us)) = (ts ++ [z], place (some z) us) :=
    splitGroup_balanced hts (by simp [Token.closes, Token.isMarkOf, hz])
      (by simp [Token.opens, Token.isMarkOf, hz]) _
  have hexport : nextIs (place before (e :: (bs ++ o :: (ts ++ z :: us)))) "export" = true := by
    simp [nextIs, place, Token.is, he.1, he.2]
  have hrest : skipBreaks (place before (e :: (bs ++ o :: (ts ++ z :: us)))).tail
      = place (bs.getLast?.or (some e)) (o :: (ts ++ z :: us)) := by
    rw [place, List.tail_cons, skipBreaks_place_append hbs]
    exact skipBreaks_place_cons (by simp [Token.isBreak, ho]) _
  have hopen : nextIs (place (bs.getLast?.or (some e)) (o :: (ts ++ z :: us))) "\x7b" = true := by
    simp [nextIs, place, Token.is, ho]
  rw [statement?, if_pos hexport, hrest]
  dsimp only
  rw [if_pos hopen, place, List.tail_cons, exportClause, hgroup, List.dropLast_concat]

/-- What a clause is depends on the token behind it. -/
theorem Clause.statements (h : Clause es ts) (hb : IsStart before) (hn : n.isBreak = false)
    (us : List Token) : statements 0 (place before (ts ++ n :: us))
      = if n.is "from" then .passedOn :: statements 0 (place (some n) us)
        else .clause (es.map fun e => (e.name, e.outside)) :: statements 0 (place ts.getLast? (n :: us)) := by
  obtain ⟨he, ho, hts, hc⟩ := h
  rename_i e o c ts
  have hstatement : statement? (place before (e :: ([] ++ o :: (ts ++ c :: n :: us)))) = some _ :=
    statement?_clause he (List.forall_mem_nil _) ho hts.balanced hc
  rw [skipBreaks_place_cons hn, hts.entries] at hstatement
  have htokens : e :: o :: (ts ++ [c]) ++ n :: us = e :: ([] ++ o :: (ts ++ c :: n :: us)) := by simp
  have hlast : (e :: o :: (ts ++ [c])).getLast? = some c := by simp [List.getLast?_cons]
  have hnext : nextIs (place (some c) (n :: us)) "from" = n.is "from" := rfl
  rw [htokens, hlast]
  split
  · rename_i hfrom
    exact statements_of_statement? hb he.1 (by rw [hstatement, hnext, if_pos hfrom]; rfl)
  · rename_i hfrom
    exact statements_of_statement? hb he.1 (by rw [hstatement, hnext, if_neg hfrom])

end TableRoster.Source
