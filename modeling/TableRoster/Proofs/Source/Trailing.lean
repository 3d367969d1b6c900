import TableRoster.Proofs.Source.Annotated
import TableRoster.Proofs.Source.Exported
import TableRoster.Proofs.Source.Margins

/-! # Comments at the ends of lines

Whether a slash divides or starts a regular expression depends on what stands behind it on its line. So a
comment at the end of a line changes nothing of what a module declares where every slash that divides
stands behind an operand, or is cut off from the comment by a line break, but it may close what would not
have been a regular expression. -/

namespace TableRoster.Source

open Text

variable {rd rd' : Reader} {c : Char} {a b r s v w z : List Char} {t : Token} {ts : List Token}

/-! ## What a declaration is, but for its text -/

/-- What is left of a declaration without the text of its initializer. -/
def Declaration.outline (d : Declaration) : String × String × Nat × Option String × Bool :=
  (d.name, d.keyword, d.line, d.exportName, d.initializer.isSome)

/-- All tokens at one place, on their lines. -/
def Relocation.flat : Relocation :=
  ⟨fun _ => 0, fun _ => 0, id⟩

theorem outline_declarations_relocate (s : Statement) {source source' : List Char}
    {all all' : List Statement} (h : ∀ name, aliasOf name all = aliasOf name all') :
    (s.declarations source all).map Declaration.outline
      = ((s.relocate .flat).declarations source' all').map Declaration.outline := by
  cases s with
  | clause | passedOn => rfl
  | bindings exported keyword bound =>
      simp only [Statement.declarations, Statement.relocate, List.map_map]
      refine List.map_congr_left fun b _ => ?_
      simp [Declaration.outline, Binding.relocate, Relocation.flat, h]

/-- Texts with the same tokens on the same lines declare the same, but for the texts of initializers. -/
theorem outline_declarations_eq {x y : String}
    (h : (tokens x).map (Token.relocate .flat) = (tokens y).map (Token.relocate .flat)) :
    (declarations x).map Declaration.outline = (declarations y).map Declaration.outline := by
  have hstatements : (statementsOf x).map (Statement.relocate .flat)
      = (statementsOf y).map (Statement.relocate .flat) := by
    rw [statementsOf, statementsOf, ← statements_relocate, ← statements_relocate, h]
  have hflat : ∀ z, (declarations z).map Declaration.outline
      = ((statementsOf z).map (Statement.relocate .flat)).flatMap fun s =>
        (s.declarations [] ((statementsOf z).map (Statement.relocate .flat))).map
          Declaration.outline := by
    intro z
    rw [declarations, List.map_flatMap, List.flatMap_map]
    exact List.flatMap_congr fun s _ => outline_declarations_relocate s fun name =>
      (aliasOf_relocate .flat name _).symm
  rw [hflat, hflat, hstatements]

/-! ## Slashes that divide -/

/-- A token that ends an operand, behind which a slash divides. -/
def Token.endsOperand (t : Token) : Bool :=
  match t.kind with
  | .mark => t.closes
  | .word => !Reader.wordsBeforeRegex.contains t.text
  | _ => true

theorem Reader.regexAllowed_eq (rd : Reader) :
    rd.regexAllowed = !rd.solid.any Token.endsOperand := by
  unfold regexAllowed
  cases rd.solid with
  | none => rfl
  | some t => cases hk : t.kind <;> simp [Token.endsOperand, hk]

/-- The text stands on one line; a backslash at the end of a line hides the line break. -/
def unbroken : List Char → Bool
  | [] => true
  | ['\\'] => true
  | '\\' :: _ :: r => unbroken r
  | c :: r => c != '\n' && unbroken r

/-- Of the tokens of a text that starts with `a`, every slash that divides, and that no line break cuts
off from the end of `a`, stands behind an operand. `solid` is the token in front of the row. -/
def Divides (a : List Char) : Option Token → List Token → Prop
  | _, [] => True
  | solid, t :: ts =>
    (t.isMarkOf ["/", "/="] = true → t.start < a.length → unbroken (a.drop (t.start + 1)) = true →
        solid.any Token.endsOperand = true)
      ∧ Divides a (if t.isBreak then solid else some t) ts

instance Divides.decidable (a : List Char) : (solid : Option Token) → (ts : List Token) →
    Decidable (Divides a solid ts)
  | _, [] => isTrue trivial
  | solid, t :: ts =>
    have := decidable a (if t.isBreak then solid else some t) ts
    inferInstanceAs (Decidable ((_ → _ → _ → _) ∧ _))

theorem Divides.of_append {solid : Option Token} {us : List Token} (h : Divides a solid (ts ++ us)) :
    Divides a solid ts := by
  induction ts generalizing solid with
  | nil => trivial
  | cons t ts ih => exact ⟨h.1, ih h.2⟩

theorem afterRegex_cons (hc : c ≠ '\\') (k : Bool) (r : List Char) : afterRegex k (c :: r)
    = if c = '\n' then none
      else if k then afterRegex (c ≠ ']') r
      else if c = '/' then some (r.dropWhile isWord)
      else afterRegex (c = '[') r := by
  rw [afterRegex]
  · rintro rfl
    exact absurd rfl hc
  · rintro _ _ rfl
    exact absurd rfl hc

/-- What is no regular expression before a line ends is none with anything else behind that line. -/
theorem afterRegex_none_of_broken {k : Bool} (hr : unbroken r = false)
    (h : afterRegex k (r ++ v) = none) : afterRegex k (r ++ w) = none := by
  fun_induction unbroken r generalizing k with
  | case1 | case2 => cases hr
  | case3 _ r ih => exact ih hr h
  | case4 c r h₁ h₂ ih =>
      have hc := ne_backslash h₁ h₂
      rw [List.cons_append, afterRegex_cons hc] at h ⊢
      by_cases hn : c = '\n'
      · rw [if_pos hn]
      have hrest : unbroken r = false := by simpa [hn] using hr
      rw [if_neg hn] at h ⊢
      cases k with
      | true => exact ih hrest h
      | false =>
          by_cases hslash : c = '/'
          · simp [hslash] at h
          · simp only [Bool.false_eq_true, if_false, if_neg hslash] at h ⊢
            exact ih hrest h

/-! ## Reading with a comment -/

/-- A comment with a blank in front of it. -/
def trailing (z : List Char) : List Char :=
  ' ' :: '/' :: '/' :: z

theorem afterLine_append_of_mem (h : '\n' ∈ r) (v : List Char) :
    afterLine (r ++ v) = afterLine r ++ v := by
  have hne : ¬ (r.dropWhile (· ≠ '\n')).isEmpty = true := fun hempty => by
    simpa using List.dropWhile_eq_nil_iff.1 (List.isEmpty_iff.1 hempty) '\n' h
  rw [afterLine, afterLine, List.dropWhile_append, if_neg hne]

theorem afterLine_of_not_mem (h : '\n' ∉ r) (v : List Char) :
    afterLine (r ++ '\n' :: v) = '\n' :: v := by
  have hall : ∀ c ∈ r, decide (c ≠ '\n') = true := by
    simpa using fun c hc => ne_of_mem_of_not_mem hc h
  rw [afterLine, List.dropWhile_append_of_pos hall]
  rfl

theorem lf_not_mem_trailing (hz : '\n' ∉ z) : '\n' ∉ trailing z := by
  simp [trailing, hz]

/-- A comment on one line makes no token, and ends no line. -/
theorem Reader.advance_comment (hr : '\n' ∉ r) :
    rd.advance .comment r = { rd with offset := rd.offset + r.length } := by
  have htoken : rd.token? .comment r = none := by
    simp [token?, hr]
  simp [advance, htoken, linesOf, List.count_eq_zero.2 hr]

theorem Element.next_line (k : Bool) (hr : '\n' ∉ r) :
    Element.next k '/' ('/' :: r ++ '\n' :: b) = (.comment, '\n' :: b) := by
  have hafter : afterLine ('/' :: (r ++ '\n' :: b)) = '\n' :: b :=
    afterLine_of_not_mem (r := '/' :: r) (by simp [hr]) b
  simp [Element.next, blanks, hafter]

theorem reads_comment (hr : '\n' ∉ r) : Reads ('\n' :: b) rd ('/' :: '/' :: r) []
    { rd with offset := rd.offset + (r.length + 2) } := by
  have hall : '\n' ∉ '/' :: '/' :: r := by simp [hr]
  have hread : Reads ('\n' :: b) rd ('/' :: '/' :: r) ((rd.token? .comment ('/' :: '/' :: r)).toList ++ [])
      (rd.advance .comment ('/' :: '/' :: r)) :=
    .cons (s := []) (Element.next_line _ hr) (by simp) .nil
  rw [Reader.advance_comment hall] at hread
  simpa [Reader.token?, hr] using hread

/-- A string that a quote closes. -/
def Token.Terminated (t : Token) : Prop :=
  ∃ q s, q ∈ ['\x27', '\x22'] ∧ t.text = String.ofList (q :: (s ++ [q])) ∧ Quoted q s

/-- A string is the same in front of anything, if a quote closes it. -/
theorem Token.Terminated.afterString {q : Char} (h : (rd.tokenOf .string z).Terminated)
    (hz : q :: r = z ++ s) (w : List Char) : afterString q (r ++ w) = s ++ w := by
  obtain ⟨q', x, hq, htext, hx⟩ := h
  obtain rfl : z = q' :: (x ++ [q']) := by simpa [Reader.tokenOf, ← String.toList_inj] using htext
  obtain ⟨rfl, rfl⟩ := List.cons.inj hz
  simpa using hx.afterString hq (s ++ w)

/-- A slash that divides starts no regular expression in front of a comment either. -/
theorem regexAt?_trailing {p : List Char} (hd : Divides a rd.solid (rd.tokenOf .mark z :: ts))
    (ha : a = p ++ c :: r) (ho : rd.offset = p.length) (hz : c :: r = z ++ s) (hmark : z ∈ marks)
    (h : regexAt? rd.regexAllowed c (r ++ v) = none) : regexAt? rd.regexAllowed c (r ++ w) = none := by
  by_cases hc : c = '/'
  swap
  · exact regexAt?_of_ne hc _
  subst hc
  have hhead : z.head? = some '/' := by
    cases z with
    | nil => exact absurd hmark (by decide)
    | cons e z => rw [(List.cons.inj hz).1]; rfl
  have hdivides : (rd.tokenOf .mark z).isMarkOf ["/", "/="] = true := by
    simpa [Token.isMarkOf, Reader.tokenOf] using division_cases z hmark hhead
  cases hr : unbroken r with
  | true =>
      have hrest : a.drop (rd.offset + 1) = r := by
        rw [ha, ho, List.drop_append]
        simp
      have hoperand := hd.1 hdivides (by simp [Reader.tokenOf, ha, ho]) (by rw [← hr, ← hrest]; rfl)
      rw [Reader.regexAllowed_eq, hoperand]
      exact if_neg (by simp)
  | false =>
      unfold regexAt? at h ⊢
      split at h
      · rename_i hk
        rw [if_pos hk]
        exact afterRegex_none_of_broken hr h
      · rename_i hk
        exact if_neg hk

theorem Divides.advance {e : Element} {x : List Char}
    (h : Divides a rd.solid ((rd.token? e x).toList ++ ts)) : Divides a (rd.advance e x).solid ts := by
  unfold Reader.advance
  cases ht : rd.token? e x with
  | none => simpa [ht] using h
  | some t =>
      rw [ht] at h
      cases hb : t.isBreak <;> simpa [Option.filter, hb] using h.2

/-- A comment at the end of a line is read as no token, and what stands in front of it as before. -/
theorem Reads.trailing {p : List Char} (h : Reads ('\n' :: b) rd s ts rd') (ha : a = p ++ s)
    (ho : rd.offset = p.length) (hd : Divides a rd.solid ts)
    (ht : ∀ t ∈ ts, t.kind = .string → t.Terminated) (hz : '\n' ∉ z) :
    ∃ rd₂, Reads ('\n' :: b) rd (s ++ trailing z) ts rd₂ ∧
      Reader.Moved (trailing z).length 0 rd' rd₂ := by
  induction h generalizing p with
  | nil =>
      refine ⟨_, Reads.space.append (reads_comment hz), ?_, rfl, rfl, rfl⟩
      simp [Source.trailing, Reader.advance]
      omega
  | @cons rd rd' c r x s e ts next split rest ih =>
      by_cases hline : c = '/' ∧ r.head? = some '/' ∧ '\n' ∉ r
      · -- the comment goes on with the one that the line ends with
        obtain ⟨rfl, hhead, hr⟩ := hline
        obtain ⟨r, rfl⟩ := List.head?_eq_some_iff.1 hhead
        have hfound := Element.next_line (rd.regexAllowed) (b := b) (r := r) (by simpa using hr)
        obtain ⟨rfl, hs⟩ := Prod.mk.inj (next.symm.trans hfound)
        obtain rfl : s = [] := by simpa using hs
        obtain rfl : '/' :: '/' :: r = x := by simpa using split
        cases rest
        have hread : Reads ('\n' :: b) rd ('/' :: '/' :: (r ++ Source.trailing z)) [] _ :=
          reads_comment (by simpa using ⟨by simpa using hr, lf_not_mem_trailing hz⟩)
        refine ⟨_, by simpa [Reader.token?, hr] using hread, ?_⟩
        rw [Reader.advance_comment (by simpa using hr)]
        refine ⟨?_, rfl, rfl, rfl⟩
        simp
        omega
      have hnext : Element.next rd.regexAllowed c ((r ++ Source.trailing z) ++ '\n' :: b)
          = (e, (s ++ Source.trailing z) ++ '\n' :: b) := by
        rw [List.append_assoc, List.append_assoc]
        refine Element.next_front ⟨' ', _, rfl, by decide⟩ (by decide) ?_ ?_ ?_ ?_ next
        · rintro rfl hhead hafter
          have hmem : '\n' ∈ r := by
            by_contra hr
            exact hline ⟨rfl, hhead, hr⟩
          rw [afterLine_append_of_mem hmem] at hafter ⊢
          rw [List.append_cancel_right hafter]
        · rintro - rfl -
          have hmem : rd.tokenOf .string x ∈ (rd.token? (.token .string) x).toList ++ ts := by
            simp [Reader.token?, Reader.tokenOf]
          exact (ht _ hmem rfl).afterString split _
        · rintro hnone rfl
          have htext : c :: (r ++ '\n' :: b) = x ++ (s ++ '\n' :: b) := by
            rw [← List.cons_append, split, List.append_assoc]
          exact regexAt?_trailing hd ha ho split ((Element.next_starts next).mark_text htext).2 hnone
        · exact markAt?_front (by decide)
      obtain ⟨rd₂, hread, hmoved⟩ := ih (p := p ++ x) (by rw [ha, split, List.append_assoc])
        (by simp [Reader.advance, ho]) hd.advance
        (fun t hmem => ht t (List.mem_append_right _ hmem))
      have hsplit : c :: (r ++ Source.trailing z) = x ++ (s ++ Source.trailing z) := by
        rw [← List.cons_append, split, List.append_assoc]
      exact ⟨rd₂, .cons hnext hsplit hread, hmoved⟩

/-! ## What a module with a comment declares -/

/-- A comment at the end of a line, where a token shows that the line ends, changes nothing of what a
module declares, if every slash divides that a comment could take for the start of a regular
expression. -/
theorem declarations_trailing {x y c : String} (ht : t ∈ tokens (x ++ "\n" ++ y))
    (hstart : t.start = x.length)
    (hstrings : ∀ u ∈ tokens (x ++ "\n" ++ y), u.kind = .string → u.Terminated)
    (hslashes : Divides x.toList none (tokens (x ++ "\n" ++ y))) (hc : '\n' ∉ c.toList) :
    (declarations (x ++ " //" ++ c ++ "\n" ++ y)).map Declaration.outline
      = (declarations (x ++ "\n" ++ y)).map Declaration.outline := by
  have htext : (x ++ "\n" ++ y).toList = x.toList ++ '\n' :: y.toList := by simp
  have htext' : (x ++ " //" ++ c ++ "\n" ++ y).toList
      = (x.toList ++ trailing c.toList) ++ '\n' :: y.toList := by
    simp [trailing]
  have hoffset : t.start = Reader.start.offset + x.toList.length := by
    rw [hstart, String.length_toList]
    exact (Nat.zero_add _).symm
  obtain ⟨ts, rd, hread⟩ := reads_of_mem (w := '\n' :: y.toList) (by rw [← htext]; exact ht) hoffset
  have htokens : tokens (x ++ "\n" ++ y) = ts ++ lex rd ('\n' :: y.toList) := by
    rw [tokens, htext, hread.lex_append]
  rw [htokens] at hstrings hslashes
  obtain ⟨rd₂, hread₂, hmoved⟩ := hread.trailing (p := []) rfl rfl hslashes.of_append
    (fun u hu => hstrings u (List.mem_append_left _ hu)) hc
  refine outline_declarations_eq ?_
  rw [htokens, tokens, htext', hread₂.lex_append, hmoved.lex, List.map_append, List.map_append,
    List.map_map]
  rfl

/-- A comment with a quote, a bracket and a slash, behind a division. -/
theorem declarations_trailing_quote :
    (declarations ("const n = total / 2" ++ " //" ++ " it's `a` [1] /b/ \x7b" ++ "\n"
        ++ "export const t = pgTable('t');\n")).map Declaration.outline
      = (declarations ("const n = total / 2" ++ "\n" ++ "export const t = pgTable('t');\n")).map
          Declaration.outline := by
  have hstring : ∀ u ∈ tokens ("const n = total / 2" ++ "\n" ++ "export const t = pgTable('t');\n"),
      u.kind = .string → u.text = "'t'" := by decide +kernel
  have hquoted : Quoted '\x27' ['t'] := .char (by decide) (by decide) (by decide) .nil
  exact declarations_trailing (t := ⟨.lineBreak, "\n", 19, 20, 1⟩) (by decide +kernel) (by decide)
    (fun u hu hk => ⟨'\x27', ['t'], by decide, by rw [hstring u hu hk]; rfl, hquoted⟩)
    (by decide +kernel) (by decide)

/-- Behind `++` a slash divides, but it is taken for the start of a regular expression where a comment at
the end of the line closes one. What the expression hides keeps a bracket open, and the next declaration
is lost. -/
theorem declarations_trailing_ne_increment :
    (∀ u ∈ tokens ("const a = f(i++ / 2)" ++ "\n" ++ "const b = 1;\n"), u.kind ≠ .string) ∧
      ⟨.lineBreak, "\n", 20, 21, 1⟩ ∈ tokens ("const a = f(i++ / 2)" ++ "\n" ++ "const b = 1;\n") ∧
      (declarations ("const a = f(i++ / 2)" ++ " //" ++ "" ++ "\n" ++ "const b = 1;\n")).map
          Declaration.outline
        ≠ (declarations ("const a = f(i++ / 2)" ++ "\n" ++ "const b = 1;\n")).map
          Declaration.outline := by
  refine ⟨by decide +kernel, by decide +kernel, by decide +kernel⟩

end TableRoster.Source
