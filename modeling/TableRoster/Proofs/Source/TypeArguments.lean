import TableRoster.Proofs.Source.Passed

/-! # Calls with type arguments

To an expression an angle is no bracket. So a call with one type argument is a complete expression,
but the comma behind the first of several ends an initializer, and each further argument is taken
for a binding of its own. -/

namespace TableRoster.Source

open Text

variable {rd rd' : Reader} {before : Option Token} {w : List Char} {n v : Token}
  {ts us vs : List Token} {names : List String} {x f t a : String}

/-- A call with type arguments. -/
def typedCall (f : String) (types : List String) (a : String) : String :=
  f ++ "<" ++ ", ".intercalate types ++ ">(" ++ a ++ ")"

/-! ## Reading the parts of a call -/

/-- A character that starts a word is part of no mark. -/
theorem not_mem_mark_of_startsWord {c : Char} (h : startsWord c = true) : ∀ m ∈ marks, c ∉ m := by
  intro m hm hc
  have hall : (marks.all fun m => m.all fun c => !startsWord c) = true := by decide
  have := List.all_eq_true.1 (List.all_eq_true.1 hall m hm) c hc
  simp [h] at this

/-- The tokens of a name and its first type argument. -/
structure Applied (start stop : Nat) (fn lt arg : Token) : Prop where
  fn_kind : fn.kind = .word
  angle : lt.isMarkOf ["<"] = true
  arg_kind : arg.kind = .word
  start_eq : fn.start = start
  stop_eq : arg.stop = stop

theorem Applied.calm {start stop : Nat} {fn lt arg : Token} (h : Applied start stop fn lt arg) :
    ∀ t ∈ [fn, lt, arg], t.Calm := by
  simp [Token.calm_of_word, h.fn_kind, h.arg_kind, Token.calm_of_isMarkOf h.angle]

theorem Applied.extentOf {start stop : Nat} {fn lt arg : Token} (h : Applied start stop fn lt arg) :
    extentOf [fn, lt, arg] = some (start, stop) := by
  rw [extentOf_eq (x := fn) (y := arg) rfl (Token.isBreak_of_word h.fn_kind) rfl
    (Token.isBreak_of_word h.arg_kind), h.start_eq, h.stop_eq]

theorem reads_applied (hf : isWordText f.toList = true) (ht : isWordText t.toList = true)
    (rd : Reader) : ∃ fn lt arg rd', (∀ w, Apart w →
      Reads w rd (f.toList ++ '<' :: t.toList) [fn, lt, arg] rd') ∧
      Applied rd.offset rd'.offset fn lt arg := by
  obtain ⟨c, r, hc, hstarts⟩ : ∃ c r, t.toList = c :: r ∧ startsWord c = true := by
    cases htext : t.toList with
    | nil => simp [htext, isWordText] at ht
    | cons c r =>
        simp only [htext, isWordText, Bool.and_eq_true] at ht
        exact ⟨c, r, rfl, ht.1⟩
  have hangle : ∀ w, markAt? ('<' :: (t.toList ++ w)) = some ['<'] := fun w => by
    rw [hc, List.cons_append]
    refine (markAt?_cons_append (r := []) fun m hm hmem => ?_).trans (by decide)
    exact not_mem_mark_of_startsWord hstarts m hm (List.mem_of_mem_tail hmem)
  have hread : ∀ w, Apart w → Reads w rd (f.toList ++ (['<'] ++ t.toList)) _ _ := fun w hw =>
    (Reads.word hf rfl).append ((Reads.mark (by decide) (by decide) (by decide) (hangle w)).append
      (.word ht hw.dropWhile))
  exact ⟨_, _, _, _, hread, ⟨rfl, rfl, rfl, rfl, rfl⟩⟩

/-- The tokens of the arguments of a call, from behind its last type argument. -/
structure Called (stop : Nat) (gt o : Token) (ts : List Token) (c : Token) : Prop where
  angle : gt.isMarkOf [">"] = true
  opening : o.isMarkOf ["("] = true
  balanced : Balanced ts
  closing : c.isMarkOf [")"] = true
  stop_eq : c.stop = stop

theorem reads_called (ha : Sealed a) (hb : Balanced (tokens a)) (hp : 1 ≤ rd.line) :
    ∃ gt o ts c rd', (∀ w, Seam (')' :: w) →
      Reads w rd ('>' :: '(' :: (a.toList ++ [')'])) (gt :: o :: (ts ++ [c])) rd') ∧
      Called rd'.offset gt o ts c := by
  have hangle : ∀ w rd, Reads ('(' :: w) rd ['>'] [rd.tokenOf .mark ['>']] _ := fun w rd =>
    .mark (by decide) (by decide) (by decide)
      ((markAt?_cons_append (r := []) (by decide)).trans (by decide))
  have hopen : ∀ w rd, Reads w rd ['('] [rd.tokenOf .mark ['(']] _ := fun w rd =>
    .mark (by decide) (by decide) (by decide) (markAt?_single (by decide) (by decide) w)
  have hclose : ∀ w rd, Reads w rd [')'] [rd.tokenOf .mark [')']] _ := fun w rd =>
    .mark (by decide) (by decide) (by decide) (markAt?_single (by decide) (by decide) w)
  have hfront : ∀ w, Reads w rd ['>', '('] [rd.tokenOf .mark ['>'], _] _ := fun w =>
    (hangle w rd).append (hopen w _)
  obtain ⟨l, rd₁, hread⟩ := ha.reads (Reader.advance_mark_ready (x := ['('])
    (Nat.le_trans hp (hangle [] rd).line_le) rfl)
  have hall : ∀ w, Seam (')' :: w) → Reads w rd (['>', '('] ++ (a.toList ++ [')']))
      ([rd.tokenOf .mark ['>'], _] ++ (_ ++ [rd₁.tokenOf .mark [')']])) _ := fun w hw =>
    (hfront _).append ((hread.seam hw).append (hclose w rd₁))
  refine ⟨_, _, _, _, _, hall, rfl, rfl, ?_, rfl, rfl⟩
  rw [Balanced, nesting?, List.foldlM_map]
  exact hb

theorem Called.whole {stop : Nat} {gt o c : Token} (h : Called stop gt o ts c) :
    Whole 0 (gt :: o :: (ts ++ [c])) := by
  have hcalm := Token.calm_of_isMarkOf h.angle (by decide)
  exact (whole_brackets h.opening h.closing (by decide) (by decide) h.balanced).cons
    (hcalm.nest? 0) hcalm.separates

/-- The arguments of a call declare nothing. -/
theorem Called.statements {stop : Nat} {gt o c : Token} (h : Called stop gt o ts c) :
    statements 0 (place before (gt :: o :: (ts ++ c :: us))) = statements 0 (place (some c) us) := by
  have hcalm := Token.calm_of_isMarkOf h.angle (by decide)
  obtain ⟨hk, -⟩ := Token.mem_of_isMarkOf h.angle
  have ho : o.opens = true := by
    obtain ⟨hk, ht⟩ := Token.mem_of_isMarkOf h.opening
    simp [Token.opens, Token.isMarkOf, hk, List.mem_singleton.1 ht]
  have hc : c.closes = true ∧ c.opens = false := by
    obtain ⟨hk, ht⟩ := Token.mem_of_isMarkOf h.closing
    simp [Token.closes, Token.opens, Token.isMarkOf, hk, List.mem_singleton.1 ht]
  rw [statements_skip hcalm.opens hcalm.closes (by simp [hk]),
    statements_group ho h.balanced hc.1 hc.2]

/-! ## One type argument -/

theorem seam_parenthesis {w : List Char} (hw : w ∈ [[], [';'], [';', '\n']]) : Seam (')' :: w) := by
  simp only [List.mem_cons, List.not_mem_nil, or_false] at hw
  rcases hw with rfl | rfl | rfl <;>
    exact .intro (by decide) (by simp [afterRegex]) (by simp [afterRegex])

/-- A call with one type argument is a complete expression. -/
theorem complete_typedCall (hf : isWordText f.toList = true) (ht : isWordText t.toList = true)
    (ha : Sealed a) (hb : Balanced (tokens a)) : Complete (typedCall f [t] a) := by
  obtain ⟨fn, lt, arg, rd₁, hread, happlied⟩ := reads_applied hf ht .start
  have hline : 1 ≤ rd₁.line := (hread [] rfl).line_le
  obtain ⟨gt, o, ts, c, rd₂, hread', hcalled⟩ := reads_called ha hb hline
  have htext : (typedCall f [t] a).toList
      = (f.toList ++ '<' :: t.toList) ++ '>' :: '(' :: (a.toList ++ [')']) := by
    simp [typedCall]
  have hall : ∀ w ∈ [[], [';'], [';', '\n']], Reads w .start (typedCall f [t] a).toList
      ([fn, lt, arg] ++ gt :: o :: (ts ++ [c])) rd₂ := fun w hw =>
    htext ▸ (hread ('>' :: _) rfl).append (hread' w (seam_parenthesis hw))
  obtain ⟨halone, htokens⟩ := Alone.of_reads (hall [] (by simp)) (hall [';'] (by simp)) rfl
    happlied.start_eq (by simp [List.getLast?_cons]) hcalled.stop_eq
  exact ⟨halone, htokens ▸ (whole_of_calm happlied.calm).append hcalled.whole⟩

/-! ## Several type arguments -/

/-- Names with a comma in front of each. -/
inductive Listed : List String → List Token → Prop
  | nil : Listed [] []
  | cons {c n : Token} {names : List String} {ts : List Token} (hc : c.isMarkOf [","] = true)
      (hn : n.kind = .word) (h : Listed names ts) : Listed (n.text :: names) (c :: n :: ts)

/-- The text of names with a comma in front of each. -/
def listedText (names : List String) : List Char :=
  names.flatMap fun y => [',', ' '] ++ y.toList

theorem apart_listedText (names : List String) : Apart (listedText names) := by
  cases names <;> rfl

theorem makes_listed (h : ∀ y ∈ names, isWordText y.toList = true) :
    Makes (Listed names) (listedText names) := by
  induction names with
  | nil => exact fun rd => ⟨[], rd, fun _ _ => .nil, .nil⟩
  | cons y names ih =>
      obtain ⟨hy, hrest⟩ := List.forall_mem_cons.1 h
      intro rd
      obtain ⟨ts, rd', hread, hlisted⟩ := ih hrest
        ((((rd.advance (.token .mark) [',']).advance .blank [' ']).advance (.token .word) y.toList))
      have hname : ∀ w, Apart w → Reads w rd ([','] ++ ([' '] ++ (y.toList ++ listedText names)))
          ([rd.tokenOf .mark [',']] ++ ([] ++ ([Reader.tokenOf _ .word y.toList] ++ ts))) rd' :=
        fun w hw => (reads_singleMark (by decide) _ rd).append (Reads.space.append
          ((Reads.word hy ((apart_listedText names).append hw).dropWhile).append (hread w hw)))
      refine ⟨_, rd', fun w hw => by simpa [listedText] using hname w hw, ?_⟩
      have hcons := Listed.cons (c := rd.tokenOf .mark [',']) rfl
        (n := Reader.tokenOf ((rd.advance (.token .mark) [',']).advance .blank [' ']) .word y.toList)
        rfl hlisted
      simpa [Reader.tokenOf] using hcons

theorem is_of_delimits (hv : v.isMarkOf [",", ">"] = true) :
    ∀ text ∈ ["!", ":", "="], v.is text = false := by
  obtain ⟨hk, ht⟩ := Token.mem_of_isMarkOf hv
  intro text htext
  rw [Token.is, Bool.and_eq_false_iff]
  right
  rw [beq_eq_false_iff_ne]
  rintro rfl
  exact absurd htext ((by decide : ∀ x ∈ [",", ">"], x ∉ ["!", ":", "="]) _ ht)

/-- Each name of a list binds, and has no initializer. -/
theorem Listed.bindings (h : Listed names ts) (hn : n.kind = .word) (hv : v.isMarkOf [">"] = true)
    (before : Option Token) (vs : List Token) :
    ∃ bound last, bindings (place before (n :: (ts ++ v :: vs))) = (bound, place last (v :: vs)) ∧
      bound.map (fun b => (b.name, b.extent)) = (n.text :: names).map (·, none) := by
  induction h generalizing before n with
  | nil =>
      obtain ⟨hk, ht⟩ := Token.mem_of_isMarkOf hv
      have hcomma : nextIs (place (some n) (v :: vs)) "," = false := by
        simp [nextIs, place, Token.is, List.mem_singleton.1 ht]
      refine ⟨_, _, bindings_last hn (binding?_bare hn (is_of_delimits ?_) before vs) hcomma, rfl⟩
      simp [Token.isMarkOf, hk, List.mem_singleton.1 ht]
  | @cons c m names ts hc hm _ ih =>
      obtain ⟨hk, ht⟩ := Token.mem_of_isMarkOf hc
      have hcomma : c.is "," = true := by simp [Token.is, hk, List.mem_singleton.1 ht]
      obtain ⟨bound, last, hbound, hnames⟩ := ih hm (some c)
      have hc' : c.isMarkOf [",", ">"] = true := by
        simp [Token.isMarkOf, hk, List.mem_singleton.1 ht]
      have hb := bindings_comma hn hcomma (binding?_bare hn (is_of_delimits hc') before (m :: (ts ++ v :: vs)))
      rw [hbound] at hb
      exact ⟨_, last, hb, by simpa using hnames⟩

/-- The first type argument ends the initializer of a row, and the others bind. -/
theorem statements_typedCall {e kw name eq fn lt arg gt o c semi nl : Token} {start stop stop' : Nat}
    (hexports : Exports x e kw name) (hne : x ≠ "enum") (heq : eq.isEquals)
    (happlied : Applied start stop fn lt arg) (hlisted : Listed names us) (hnil : names ≠ [])
    (hcalled : Called stop' gt o ts c) (hsemi : semi.isMarkOf [";"] = true)
    (hnl : nl.isBreak = true) :
    ∃ bound, statements 0 (place none
        (e :: kw :: name :: eq :: ([fn, lt, arg] ++ (us ++ gt :: o :: (ts ++ c :: [semi, nl])))))
        = [.bindings true "const" (⟨x, name.line, some (start, stop)⟩ :: bound)] ∧
      bound.map (fun b => (b.name, b.extent)) = names.map (·, none) := by
  have hend : ∀ last, statements 0 (place last (gt :: o :: (ts ++ c :: [semi, nl]))) = [] := by
    intro last
    have hcalm : semi.opens = false ∧ semi.closes = false ∧ (semi.kind == .word) = false := by
      obtain ⟨hk, ht⟩ := Token.mem_of_isMarkOf hsemi
      simp [Token.opens, Token.closes, Token.isMarkOf, hk, List.mem_singleton.1 ht]
    rw [hcalled.statements, statements_skip hcalm.1 hcalm.2.1 hcalm.2.2, statements_skip_break hnl,
      place, statements]
  cases hlisted with
  | nil => exact absurd rfl hnil
  | @cons comma n names us hcomma hn hlisted =>
      obtain ⟨hk, ht⟩ := Token.mem_of_isMarkOf hcomma
      have htext := List.mem_singleton.1 ht
      have hmark : comma.isMarkOf [",", ";"] = true := by simp [Token.isMarkOf, hk, htext]
      have his : comma.is "," = true := by simp [Token.is, hk, htext]
      obtain ⟨bound, last, hbound, hnames⟩ :=
        hlisted.bindings hn hcalled.angle (some comma) (o :: (ts ++ c :: [semi, nl]))
      have hsplit := splitExpression_front (whole_of_calm happlied.calm) hmark (some eq)
        (n :: (us ++ gt :: o :: (ts ++ c :: [semi, nl])))
      have hb : bindings (place (some kw) (name :: eq :: _)) = _ :=
        bindings_comma hexports.name_kind his
          (binding?_equals hexports.name_kind heq rfl (skipColonType_equals heq) hsplit)
      rw [hbound, happlied.extentOf, hexports.name_text] at hb
      exact ⟨bound, (hexports.statements hne hb).trans (by rw [hend]; rfl), hnames⟩

/-- The first type argument ends an initializer, and the others are declared. -/
theorem declarations_typedCall_cons {y : String} (hx : isWordText x.toList = true) (hne : x ≠ "enum")
    (hf : isWordText f.toList = true) (hts : ∀ z ∈ t :: y :: names, isWordText z.toList = true)
    (ha : Sealed a) (hb : Balanced (tokens a)) :
    (declarations ("export const " ++ x ++ " = " ++ typedCall f (t :: y :: names) a ++ ";\n")).map
        Declaration.printed
      = (x, "const", some (f ++ "<" ++ t), some x)
        :: (y :: names).map fun z => (z, "const", none, some z) := by
  obtain ⟨ht, hnames⟩ := List.forall_mem_cons.1 hts
  let rest := '>' :: '(' :: (a.toList ++ [')']) ++ [';', '\n']
  let call := (f.toList ++ '<' :: t.toList) ++ (listedText (y :: names) ++ rest)
  obtain ⟨e, kw, name, rd₁, hname, hexports, hline⟩ :=
    Reads.exported (w := ([' ', '=', ' '] ++ call) ++ []) hx rfl
  obtain ⟨eq, rd₂, hequals, heq, hready⟩ := reads_equals [' '] (by simp) hline
  obtain ⟨fn, lt, arg, rd₃, hcall, happlied⟩ := reads_applied hf ht rd₂
  obtain ⟨us, rd₄, hlist, hlisted⟩ := makes_listed hnames rd₃
  have hline₄ : 1 ≤ rd₄.line :=
    Nat.le_trans hready.line_pos (Nat.le_trans (hcall [] rfl).line_le (hlist [] rfl).line_le)
  obtain ⟨gt, o, ts, c, rd₅, hrest, hcalled⟩ := reads_called ha hb hline₄
  have happart : Apart (rest ++ []) := (rfl : continuesWord '>' = false)
  have hread₄ : Reads [] rd₄ rest _ rd₅.lineEnd :=
    (hrest ([';', '\n'] ++ []) (seam_parenthesis (by simp))).append .lineEnd
  have hread₃ : Reads [] rd₃ (listedText (y :: names) ++ rest) _ _ := 
    (hlist (rest ++ []) happart).append hread₄
  have hread₂ : Reads [] rd₂ call _ _ :=
    (hcall _ (by simpa using (apart_listedText (y :: names)).append happart)).append hread₃
  have hread := hname.append ((hequals (call ++ [])).append hread₂)
  have htext : ("export const " ++ x ++ " = " ++ typedCall f (t :: y :: names) a ++ ";\n").toList
      = ("export const ".toList ++ x.toList) ++ ([' ', '=', ' '] ++ call) := by
    simp [call, rest, typedCall, listedText, String.toList_intercalate, intercalate_cons,
      List.flatMap_map]
  obtain ⟨bound, hstatements, hbound⟩ := statements_typedCall hexports hne heq happlied hlisted
    (List.cons_ne_nil _ _) hcalled (rfl : (rd₅.tokenOf .mark [';']).isMarkOf [";"] = true)
    (rfl : ((rd₅.advance (.token .mark) [';']).tokenOf .lineBreak ['\n']).isBreak = true)
  generalize "export const " ++ x ++ " = " ++ typedCall f (t :: y :: names) a ++ ";\n" = text at *
  have hall : statementsOf text
      = [.bindings true "const" (⟨x, name.line, some (rd₂.offset, rd₃.offset)⟩ :: bound)] := by
    rw [← htext] at hread
    rw [statementsOf, hread.tokens, ← hstatements]
    simp
  have hslice : slice text.toList rd₂.offset rd₃.offset = f ++ "<" ++ t := by
    have hstart : rd₂.offset = ("export const ".toList ++ x.toList ++ [' ', '=', ' ']).length := by
      rw [(hequals []).offset, hname.offset]
      simp [Reader.start]
    have hstop : rd₃.offset = rd₂.offset + (f ++ "<" ++ t).length := by
      rw [(hcall [] rfl).offset]
      simp [← String.length_toList]
    rw [hstop, hstart, htext]
    simpa [call] using slice_append ("export const ".toList ++ x.toList ++ [' ', '=', ' ']) (f ++ "<" ++ t)
      (listedText (y :: names) ++ rest)
  have hlisted : bound.map (fun b => (b.name, "const",
      b.extent.map (fun p => slice text.toList p.1 p.2), some b.name))
      = (y :: names).map fun z => (z, "const", none, some z) := by
    have hmap := congrArg (List.map fun p : String × Option (Nat × Nat) => (p.1, "const",
      p.2.map (fun p => slice text.toList p.1 p.2), some p.1)) hbound
    simpa [Function.comp_def] using hmap
  rw [← hlisted]
  simp [declarations, hall, Statement.declarations, Declaration.printed, hslice, Function.comp_def]

/-! ## Any number of type arguments -/

/-- An exported call with type arguments declares one name if there is one argument. Otherwise the
initializer ends behind the first argument, and the other arguments are declared as well. -/
theorem declarations_typedCall (hx : isWordText x.toList = true) (hne : x ≠ "enum")
    (hf : isWordText f.toList = true) (hts : ∀ z ∈ t :: names, isWordText z.toList = true)
    (ha : Sealed a) (hb : Balanced (tokens a)) :
    (declarations ("export const " ++ x ++ " = " ++ typedCall f (t :: names) a ++ ";\n")).map
        Declaration.printed
      = if names = [] then [(x, "const", some (typedCall f [t] a), some x)]
        else (x, "const", some (f ++ "<" ++ t), some x)
          :: names.map fun z => (z, "const", none, some z) := by
  cases names with
  | nil =>
      have hline : ∀ l ∈ [(⟨true, "const", x, typedCall f [t] a⟩ : Line)], l.Valid := by
        rintro l hl
        obtain rfl := List.mem_singleton.1 hl
        exact ⟨List.mem_cons_self, hx, hne, complete_typedCall hf (hts t (by simp)) ha hb⟩
      have htext : textOf [(⟨true, "const", x, typedCall f [t] a⟩ : Line)]
          = "export const " ++ x ++ " = " ++ typedCall f [t] a ++ ";\n" := by
        rw [← String.toList_inj]
        simp [textOf, Line.text]
      rw [← htext, declarations_textOf hline]
      rfl
  | cons y names => rw [if_neg (by simp), declarations_typedCall_cons hx hne hf hts ha hb]

/-- With one type argument and with three. -/
theorem declarations_typedCall_one_three :
    (declarations "export const x = F<A>([b, c], \"(\");\n").map Declaration.printed
        = [("x", "const", some "F<A>([b, c], \"(\")", some "x")] ∧
      (declarations "export const x = F<A, B, C>(d);\n").map Declaration.printed
        = [("x", "const", some "F<A", some "x"), ("B", "const", none, some "B"),
            ("C", "const", none, some "C")] := by
  have hx : isWordText "x".toList = true := by decide
  have hf : isWordText "F".toList = true := by decide
  have hone : ∀ z ∈ ["A"], isWordText z.toList = true := by decide
  have hthree : ∀ z ∈ ["A", "B", "C"], isWordText z.toList = true := by decide
  have ha : Sealed "[b, c], \"(\"" ∧ Balanced (tokens "[b, c], \"(\"") := by decide +kernel
  have hd : Sealed "d" ∧ Balanced (tokens "d") := by decide +kernel
  have hfirst := declarations_typedCall hx (by decide) hf hone ha.1 ha.2
  have hsecond := declarations_typedCall hx (by decide) hf hthree hd.1 hd.2
  exact ⟨by simpa [typedCall] using hfirst, by simpa [typedCall] using hsecond⟩

/-- A call with two type arguments is not taken for one initializer. -/
theorem declarations_typedCall_ne_one :
    Sealed "c" ∧ Balanced (tokens "c") ∧
    (declarations ("export const x = " ++ typedCall "F" ["A", "B"] "c" ++ ";\n")).map
        Declaration.printed
      ≠ [("x", "const", some (typedCall "F" ["A", "B"] "c"), some "x")] := by
  have hx : isWordText "x".toList = true := by decide
  have hf : isWordText "F".toList = true := by decide
  have hts : ∀ z ∈ ["A", "B"], isWordText z.toList = true := by decide
  have ha : Sealed "c" := by decide +kernel
  have hb : Balanced (tokens "c") := by decide +kernel
  refine ⟨ha, hb, fun h => ?_⟩
  have htwo := declarations_typedCall_cons hx (by decide) hf hts ha hb
  rw [show "export const " ++ "x" ++ " = " = "export const x = " by decide, h] at htwo
  simp at htwo

end TableRoster.Source
