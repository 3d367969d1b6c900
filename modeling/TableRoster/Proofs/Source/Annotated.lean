import TableRoster.Proofs.Source.Element
import TableRoster.Proofs.Source.RoundTrip

/-! # Names with a type

The type behind a name is passed over up to the equals sign, if its brackets and angles close and
nothing outside of them ends it. The sign is found where it is a mark of its own: right behind a
closing angle it is none. -/

namespace TableRoster.Source

variable {rd rd' : Reader} {d : Char} {s u v w : List Char} {t : Token} {ts us : List Token}
  {depth angles : Nat}

/-! ## Reading in front of a border -/

/-- The first slash of a mark divides. -/
theorem division_cases : ∀ m ∈ marks, m.head? = some '/' → String.ofList m ∈ ["/", "/="] := by
  decide

/-- What was read in front of a semicolon is read alike in front of a border, if the border goes on
with no mark at the end of the text, and if no slash of the text divides. -/
theorem Reads.border (h : Reads (';' :: u) rd s ts rd') (hd : d ∈ borderChars)
    (hs : ∀ t ∈ ts, t.isMarkOf ["/", "/="] = false)
    (hl : ∀ c ∈ s.getLast?, ∀ m ∈ marks, ¬ [c, d] <:+: m) : Reads (d :: v) rd s ts rd' := by
  induction h with
  | nil => exact .nil
  | @cons rd rd' c r x s e ts next split rest ih =>
      refine .cons (Element.next_border ⟨d, v, rfl, hd⟩ ?_ ?_ next) split (ih ?_ ?_)
      · intro _ he
        by_cases hc : c = '/'
        · -- a slash that starts a mark divides
          subst hc he
          have htext : '/' :: (r ++ ';' :: u) = x ++ (s ++ ';' :: u) := by
            rw [← List.cons_append, split, List.append_assoc]
          obtain ⟨-, hmem⟩ := (Element.next_starts next).mark_text htext
          have hhead : x.head? = some '/' := by
            cases x with
            | nil => exact absurd hmem (by decide)
            | cons a x => rw [(List.cons.inj htext).1]; rfl
          have hmark := hs (rd.tokenOf .mark x) (by simp [Reader.token?, Reader.tokenOf])
          have hdivides := division_cases x hmem hhead
          simp [Token.isMarkOf, Reader.tokenOf, hdivides] at hmark
        · exact regexAt?_of_ne hc _
      · refine markAt?_append fun m hm hp => ?_
        obtain ⟨y, l, hy⟩ := (List.eq_nil_or_concat (c :: r)).resolve_left (List.cons_ne_nil c r)
        rw [hy, List.concat_eq_append] at hp hl
        have hpair : [l, d] <:+: (y ++ [l]) ++ [d] := ⟨y, [], by simp⟩
        exact hl l (by simp) m hm (hpair.trans hp.isInfix)
      · exact fun t ht => hs t (List.mem_append_right _ ht)
      · intro l hlast
        refine hl l ?_
        rw [split, List.getLast?_append, hlast]
        rfl

/-! ## Rows that a type takes -/

/-- The number of open angles behind one more token; there is none if it closes more than are
open. -/
def Token.angle? (angles : Nat) (t : Token) : Option Nat :=
  t.tally? (Token.countOf ["<"]) closedAngles angles

/-- The number of open angles behind some tokens. -/
def angling? (angles : Nat) (ts : List Token) : Option Nat :=
  tally? (Token.countOf ["<"]) closedAngles angles ts

/-- An equals sign, a comma, a semicolon or a line break. -/
def Token.endsType (t : Token) : Bool :=
  t.isMarkOf ["=", ",", ";"] || t.isBreak

/-- All brackets and all angles of a row close, and nothing outside of them ends a type. -/
structure Typed (depth angles : Nat) (ts : List Token) : Prop where
  nested : nesting? depth ts = some 0
  angled : angling? angles ts = some 0
  unbroken : ∀ us t vs, ts = us ++ t :: vs → nesting? depth us = some 0 →
    angling? angles us = some 0 → t.endsType = false

/-- A text that is one type: nothing in it is left open, and its tokens are taken by a type. -/
structure TypeText (e : String) : Prop where
  isSealed : Sealed e
  typed : Typed 0 0 (tokens e)

theorem angling?_cons (angles : Nat) (t : Token) (ts : List Token) :
    angling? angles (t :: ts) = (t.angle? angles).bind (angling? · ts) := rfl

namespace Typed

theorem cons_iff : Typed depth angles (t :: ts) ↔
    (depth = 0 → angles = 0 → t.endsType = false) ∧
      ∃ d a, t.nest? depth = some d ∧ t.angle? angles = some a ∧ Typed d a ts := by
  constructor
  · intro h
    obtain ⟨d, hd, hn⟩ := Option.bind_eq_some_iff.1 ((nesting?_cons ..).symm.trans h.nested)
    obtain ⟨a, ha, hm⟩ := Option.bind_eq_some_iff.1 ((angling?_cons ..).symm.trans h.angled)
    refine ⟨?_, d, a, hd, ha, hn, hm, ?_⟩
    · rintro rfl rfl
      exact h.unbroken [] t ts rfl rfl rfl
    · rintro us x vs rfl hus hus'
      exact h.unbroken (t :: us) x vs rfl (by rw [nesting?_cons, hd]; exact hus)
        (by rw [angling?_cons, ha]; exact hus')
  · rintro ⟨hs, d, a, hd, ha, h⟩
    refine ⟨by rw [nesting?_cons, hd]; exact h.nested, by rw [angling?_cons, ha]; exact h.angled, ?_⟩
    rintro (_ | ⟨u, us⟩) x vs hts hus hus'
    · cases hts
      exact hs (Option.some.inj hus) (Option.some.inj hus')
    · cases hts
      rw [nesting?_cons, hd] at hus
      rw [angling?_cons, ha] at hus'
      exact h.unbroken us x vs rfl hus hus'

theorem nil_iff : Typed depth angles [] ↔ depth = 0 ∧ angles = 0 :=
  ⟨fun h => ⟨Option.some.inj h.nested, Option.some.inj h.angled⟩,
    fun ⟨hd, ha⟩ => ⟨congrArg some hd, congrArg some ha, by simp⟩⟩

instance decidable : (depth angles : Nat) → (ts : List Token) → Decidable (Typed depth angles ts)
  | depth, angles, [] => decidable_of_iff _ nil_iff.symm
  | depth, angles, t :: ts =>
      match hd : t.nest? depth, ha : t.angle? angles with
      | some d, some a =>
          have := decidable d a ts
          decidable_of_iff ((depth = 0 → angles = 0 → t.endsType = false) ∧ Typed d a ts)
            (by simp [cons_iff, hd, ha])
      | none, _ => isFalse fun h => by simp [cons_iff, hd] at h
      | _, none => isFalse fun h => by simp [cons_iff, ha] at h

theorem moved (h : Typed depth angles ts) (o l : Nat) :
    Typed depth angles (ts.map (Token.moved o l)) := by
  induction ts generalizing depth angles with
  | nil => exact h
  | cons t ts ih =>
      obtain ⟨hs, d, a, hd, ha, hts⟩ := cons_iff.1 h
      exact cons_iff.2 ⟨hs, d, a, hd, ha, ih hts⟩

end Typed

instance (e : String) : Decidable (TypeText e) :=
  decidable_of_iff (Sealed e ∧ Typed 0 0 (tokens e)) ⟨fun ⟨h, ht⟩ => ⟨h, ht⟩, fun h => ⟨h.1, h.2⟩⟩

/-! ## Up to the equals sign -/

theorem Token.angle?_of_bracket (h : t.opens = true ∨ t.closes = true) (angles : Nat) :
    t.angle? angles = some angles := by
  have htext : t.text ∈ ["(", "[", "\x7b", ")", "]", "\x7d"] := by
    rcases h with h | h <;>
      · simp only [opens, closes, isMarkOf, Bool.and_eq_true, List.contains_iff_mem] at h
        simp only [List.mem_cons, List.not_mem_nil, or_false] at h ⊢
        tauto
  have hangle : ∀ x ∈ ["(", "[", "\x7b", ")", "]", "\x7d"], x ∉ ["<", ">", ">>", ">>>"] := by decide
  have hnot := hangle _ htext
  simp only [List.mem_cons, List.not_mem_nil, or_false, not_or] at hnot
  simp [angle?, tally?, countOf, closedAngles, isMarkOf, hnot]

theorem Token.angle?_eq_some {n m : Nat} : t.angle? n = some m ↔
    closedAngles t ≤ n ∧ n - closedAngles t + t.countOf ["<"] = m := by
  simp [angle?, tally?]

theorem Token.closedAngles_of_opened (h : t.isMarkOf ["<"] = true) : closedAngles t = 0 := by
  simp only [isMarkOf, Bool.and_eq_true, List.contains_iff_mem, List.mem_singleton] at h
  simp [closedAngles, isMarkOf, h]

/-- A type takes a token that does not end it. -/
theorem splitType_step {p : Placed} {d a : Nat} (hs : depth = 0 → angles = 0 → p.token.endsType = false)
    (hd : p.token.nest? depth = some d) (ha : p.token.angle? angles = some a) (ps : List Placed) :
    splitType depth angles (p :: ps) = (p.token :: (splitType d a ps).1, (splitType d a ps).2) := by
  rw [splitType]
  simp only
  cases Token.nest?_eq_some.1 hd with
  | opens ho =>
      obtain rfl : angles = a := Option.some.inj ((Token.angle?_of_bracket (.inl ho) angles).symm.trans ha)
      rw [if_pos ho]
  | closes ho hc =>
      obtain rfl : angles = a := Option.some.inj ((Token.angle?_of_bracket (.inr hc) angles).symm.trans ha)
      rw [if_neg (by simp [ho]), if_pos hc, if_neg (Nat.succ_ne_zero d), Nat.add_sub_cancel]
  | stays ho hc =>
      rw [if_neg (by simp [ho]), if_neg (by simp [hc])]
      obtain ⟨-, rfl⟩ := Token.angle?_eq_some.1 ha
      by_cases hopened : p.token.isMarkOf ["<"] = true
      · have hcount : p.token.countOf ["<"] = 1 := if_pos hopened
        rw [if_pos hopened, Token.closedAngles_of_opened hopened, hcount, Nat.sub_zero]
      have hcount : p.token.countOf ["<"] = 0 := if_neg hopened
      rw [if_neg hopened, hcount, Nat.add_zero]
      by_cases hclosed : closedAngles p.token > 0
      · rw [if_pos hclosed]
      -- no bracket and no angle: outside of all of them, what ends a type would stop here
      have hgoes : depth = 0 → angles = 0 →
          p.token.isMarkOf ["=", ",", ";"] = false ∧ p.token.isBreak = false := fun hd ha => by
        simpa [Token.endsType] using hs hd ha
      obtain hclosed : closedAngles p.token = 0 := by omega
      rw [hclosed, Nat.sub_zero, if_neg (by omega), if_neg (by simp; exact fun hd ha => (hgoes hd ha).1),
        if_neg (by simp; exact fun hd ha hb => absurd hb (by simp [(hgoes hd ha).2]))]

/-- A type goes on behind a row that it takes. -/
theorem splitType_typed (h : Typed depth angles ts) (before next : Option Token) (ps : List Placed) :
    splitType depth angles (placeTo before next ts ++ ps)
      = (ts ++ (splitType 0 0 ps).1, (splitType 0 0 ps).2) := by
  induction ts generalizing depth angles before with
  | nil =>
      obtain ⟨rfl, rfl⟩ := Typed.nil_iff.1 h
      rfl
  | cons t ts ih =>
      obtain ⟨hs, d, a, hd, ha, ht⟩ := Typed.cons_iff.1 h
      rw [placeTo, List.cons_append, splitType_step hs hd ha, ih ht, List.cons_append]

theorem splitType_equals {eq : Token} (h : eq.isEquals) (before : Option Token) (us : List Token) :
    splitType 0 0 (place before (eq :: us)) = ([], place before (eq :: us)) := by
  obtain ⟨hk, ht⟩ := h
  rw [place, splitType]
  simp [Token.opens, Token.closes, closedAngles, Token.isMarkOf, hk, ht]

/-- The type behind a name is left out, up to the equals sign. -/
theorem skipColonType_typed {colon eq : Token} (hcolon : colon.isMarkOf [":"] = true)
    (h : Typed 0 0 ts) (heq : eq.isEquals) (before : Option Token) (us : List Token) :
    skipColonType (dropMark "!" (place before (colon :: (ts ++ eq :: us))))
      = place (ts.getLast?.or (some colon)) (eq :: us) := by
  have htext : colon.kind = .mark ∧ colon.text = ":" := by simpa [Token.isMarkOf] using hcolon
  have hbang : colon.is "!" = false := by simp [Token.is, htext]
  have his : colon.is ":" = true := by simp [Token.is, htext]
  rw [dropMark, if_neg (by simp [nextIs, place, hbang]), skipColonType,
    if_pos (by simp [nextIs, place, his]), place, List.tail_cons, place_append, splitType_typed h,
    splitType_equals heq]

/-! ## Typed names -/

/-- The characters that a mark can have in front of an equals sign. -/
def beforeEquals : List Char :=
  ['=', '!', '<', '>', '?', '&', '|', '*', '-', '+', '/', '%', '^']

theorem not_infix_of_not_beforeEquals {c : Char} (hc : c ∉ beforeEquals) :
    ∀ m ∈ marks, ¬ [c, '='] <:+: m := by
  intro m hm hinfix
  have hall : ∀ m ∈ marks, ∀ i < m.length, m[i + 1]? = some '=' → m[i]? ∈ beforeEquals.map some := by
    decide
  obtain ⟨y, z, rfl⟩ := hinfix
  have := hall _ hm y.length (by simp) (by simp)
  simp at this
  exact hc this

/-- A type is read in front of an equals sign, if a blank stands between the two or no mark can have
the last character of the type in front of the sign. -/
theorem TypeText.reads {e s : String} (he : TypeText e)
    (hs : s = " " ∨ s = "" ∧ ∀ c ∈ e.toList.getLast?, c ∉ beforeEquals)
    (hd : ∀ t ∈ tokens e, t.isMarkOf ["/", "/="] = false) (hr : rd.Ready) :
    ∃ l rd', ∀ w, Reads (s.toList ++ '=' :: w) rd e.toList
      ((tokens e).map (Token.moved rd.offset l)) rd' := by
  obtain ⟨l, rd', hread⟩ := he.isSealed.reads hr
  have hmarks : ∀ t ∈ (tokens e).map (Token.moved rd.offset l), t.isMarkOf ["/", "/="] = false := by
    intro t ht
    obtain ⟨u, hu, rfl⟩ := List.mem_map.1 ht
    exact hd u hu
  refine ⟨l, rd', fun w => ?_⟩
  rcases hs with rfl | ⟨rfl, hlast⟩
  · have hblank : ' ' ∈ seamChars := by decide
    have hpair : ∀ c ∈ e.toList.getLast?, ∀ m ∈ marks, ¬ [c, ' '] <:+: m := by
      rintro c - m hm ⟨y, z, rfl⟩
      refine seamChars_not_in_mark hblank _ hm ?_
      cases y <;> simp
    exact hread.border (List.mem_cons_of_mem _ hblank) hmarks hpair
  · exact hread.border List.mem_cons_self hmarks fun c hc =>
      not_infix_of_not_beforeEquals (hlast c hc)

theorem reads_colon (hp : 1 ≤ rd.line) :
    ∃ colon rd', (∀ w, Reads w rd [':', ' '] [colon] rd') ∧ colon.isMarkOf [":"] = true ∧
      rd'.Ready := by
  have hmark : ∀ w, markAt? (':' :: ' ' :: w) = some [':'] := fun w =>
    (markAt?_front (r := []) (by decide)).trans (by decide)
  have hread : ∀ w, Reads w rd ([':'] ++ [' ']) ([_] ++ []) _ := fun w =>
    (Reads.mark (by decide) (by decide) (by decide) (hmark w)).append .space
  exact ⟨_, _, hread, rfl, (Reader.advance_mark_ready hp rfl).advance_blank _⟩

/-- A row with a typed name binds the name to the expression behind the type. -/
theorem statements_annotated {x : String} {e kw name colon eq semi nl : Token} (hne : x ≠ "enum")
    (hexports : Exports x e kw name) (hcolon : colon.isMarkOf [":"] = true) (hts : Typed 0 0 ts)
    (heq : eq.isEquals) (hus : Whole 0 us) (hsemi : semi.isMarkOf [";"] = true)
    (hnl : nl.isBreak = true) :
    statements 0 (place none (e :: kw :: name :: colon :: (ts ++ eq :: (us ++ [semi, nl]))))
      = [.bindings true "const" [⟨x, name.line, extentOf us⟩]] := by
  have hmark : semi.kind = .mark ∧ semi.text = ";" := by simpa [Token.isMarkOf] using hsemi
  have hcomma : nextIs (place (us.getLast?.or (some eq)) [semi, nl]) "," = false := by
    simp [nextIs, place, Token.is, hmark]
  have hsplit := splitExpression_front hus (t := semi) (by simp [Token.isMarkOf, hmark]) (some eq) [nl]
  have hb : bindings (place (some kw) (name :: colon :: _)) = _ :=
    bindings_last hexports.name_kind (binding?_equals hexports.name_kind heq rfl
      (skipColonType_typed hcolon hts heq _ _) hsplit) hcomma
  rw [hexports.statements hne hb, statements_skip, statements_skip_break hnl, place, statements,
    hexports.name_text]
  · rfl
  all_goals simp [Token.opens, Token.closes, Token.isMarkOf, hmark]

/-- An exported name with a type is declared with the expression behind the type. -/
theorem declarations_annotated {x e i s : String} (hx : isWordText x.toList = true)
    (hne : x ≠ "enum") (he : TypeText e) (hi : Complete i)
    (hs : s = " " ∨ s = "" ∧ ∀ c ∈ e.toList.getLast?, c ∉ beforeEquals)
    (hd : ∀ t ∈ tokens e, t.isMarkOf ["/", "/="] = false) :
    (declarations ("export const " ++ x ++ ": " ++ e ++ s ++ "= " ++ i ++ ";\n")).map
        Declaration.printed
      = [(x, "const", some i, some x)] := by
  have hblank : s.toList ∈ [[], [' ']] := by
    rcases hs with rfl | ⟨rfl, -⟩ <;> decide
  let value := (s.toList ++ ['=', ' ']) ++ (i.toList ++ [';', '\n'])
  obtain ⟨ex, kw, name, rd₁, hname, hexports, hline⟩ :=
    Reads.exported (w := ([':', ' '] ++ (e.toList ++ value)) ++ []) hx rfl
  obtain ⟨colon, rd₂, hcolon, hmark, hready₂⟩ := reads_colon hline
  obtain ⟨l, rd₃, htype⟩ := he.reads hs hd hready₂
  have hline₃ : 1 ≤ rd₃.line := Nat.le_trans hready₂.line_pos (htype []).line_le
  obtain ⟨eq, rd₄, hequals, heq, hready₄⟩ := reads_equals s.toList hblank hline₃
  obtain ⟨k, rd₅, hinit, -⟩ := hi.reads (seam_semicolon []) hready₄
  have hread₄ : Reads [] rd₄ (i.toList ++ [';', '\n']) _ _ := hinit.append .lineEnd
  have hread₃ : Reads [] rd₃ value _ _ := (hequals _).append hread₄
  have hfront : Reads (value ++ []) rd₂ e.toList
      ((tokens e).map (Token.moved rd₂.offset l)) rd₃ := by
    simpa [value] using htype (' ' :: (i.toList ++ [';', '\n']))
  have hread₂ := hfront.append hread₃
  have hread := hname.append ((hcolon ((e.toList ++ value) ++ [])).append hread₂)
  have htext : ("export const " ++ x ++ ": " ++ e ++ s ++ "= " ++ i ++ ";\n").toList
      = ("export const ".toList ++ x.toList) ++ ([':', ' '] ++ (e.toList ++ value)) := by
    simp [value]
  have hstatements := statements_annotated hne hexports hmark (he.typed.moved rd₂.offset l) heq
    (hi.whole_moved rd₄.offset k) (rfl : (rd₅.tokenOf .mark [';']).isMarkOf [";"] = true)
    (rfl : ((rd₅.advance (.token .mark) [';']).tokenOf .lineBreak ['\n']).isBreak = true)
  obtain ⟨first, hfirst, hfirstBreak, hstart⟩ := hi.head?_moved rd₄.offset k
  obtain ⟨last, -, hlast, hlastBreak, hstop⟩ := hi.getLast?_moved rd₄.offset k
  rw [extentOf_eq hfirst hfirstBreak hlast hlastBreak, hstart, hstop] at hstatements
  generalize "export const " ++ x ++ ": " ++ e ++ s ++ "= " ++ i ++ ";\n" = text at *
  have hslice : slice text.toList rd₄.offset (rd₄.offset + i.length) = i := by
    let front := "export const ".toList ++ x.toList ++ [':', ' '] ++ e.toList ++ (s.toList ++ ['=', ' '])
    have hoffset : rd₄.offset = front.length := by
      rw [(hequals []).offset, (htype []).offset, (hcolon []).offset, hname.offset]
      simp [front, Reader.start]
      omega
    rw [hoffset, htext]
    simpa [front, value] using slice_append front i [';', '\n']
  have hstands : List.Forall₂ (Line.Stands text.toList) [⟨true, "const", x, i⟩] (statementsOf text) := by
    rw [← htext] at hread
    rw [statementsOf, hread.tokens]
    simp only [List.cons_append, List.nil_append]
    rw [hstatements]
    exact .cons ⟨_, _, _, rfl, hslice⟩ .nil
  exact declarations_of_stands hstands

/-- A function type in front of a blank, and an object type right in front of the equals sign. -/
theorem declarations_annotated_function_object :
    (declarations "export const x: (y: A) => Map<K, V<W>> = c;\n").map Declaration.printed
        = [("x", "const", some "c", some "x")] ∧
      (declarations "export const x: \x7b a: A<B>; b: C[] \x7d= d(\"=\", e);\n").map
          Declaration.printed
        = [("x", "const", some "d(\"=\", e)", some "x")] := by
  have hx : isWordText "x".toList = true := by decide
  have hne : "x" ≠ "enum" := by decide
  have hfunction : TypeText "(y: A) => Map<K, V<W>>" := by decide +kernel
  have hobject : TypeText "\x7b a: A<B>; b: C[] \x7d" := by decide +kernel
  have hfirst : Complete "c" := by decide +kernel
  have hsecond : Complete "d(\"=\", e)" := by decide +kernel
  have hspaced := declarations_annotated hx hne hfunction hfirst (s := " ") (.inl rfl)
    (by decide +kernel)
  have hunspaced := declarations_annotated hx hne hobject hsecond (s := "")
    (.inr ⟨rfl, by simp [beforeEquals]⟩) (by decide +kernel)
  have htext : "export const " ++ "x" ++ ": " ++ "(y: A) => Map<K, V<W>>" ++ " " ++ "= " ++ "c" ++ ";\n"
      = "export const x: (y: A) => Map<K, V<W>> = c;\n" := by decide +kernel
  have htext' : "export const " ++ "x" ++ ": " ++ "\x7b a: A<B>; b: C[] \x7d" ++ "" ++ "= "
        ++ "d(\"=\", e)" ++ ";\n"
      = "export const x: \x7b a: A<B>; b: C[] \x7d= d(\"=\", e);\n" := by decide +kernel
  exact ⟨htext ▸ hspaced, htext' ▸ hunspaced⟩

/-- A closing angle right in front of an equals sign is one mark together with it, which no type
ends at. -/
theorem declarations_annotated_ne_unspaced :
    TypeText "A<B>" ∧ Complete "c" ∧ (∀ t ∈ tokens "A<B>", t.isMarkOf ["/", "/="] = false) ∧
    (declarations ("export const " ++ "x" ++ ": " ++ "A<B>" ++ "" ++ "= " ++ "c" ++ ";\n")).map
        Declaration.printed
      ≠ [("x", "const", some "c", some "x")] := by
  refine ⟨by decide +kernel, by decide +kernel, by decide +kernel, by decide +kernel⟩

end TableRoster.Source
