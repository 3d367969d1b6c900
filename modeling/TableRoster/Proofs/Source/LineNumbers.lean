import TableRoster.Proofs.Source.TopLevel
import TableRoster.Proofs.Source.Trivia

/-! # Line numbers

A token carries the line it starts on, short of the line breaks that regular expressions in front of
it hide. -/

namespace TableRoster.Source

variable {rd : Reader} {s : List Char} {t : Token}

/-- The line of an offset: one more than the line breaks in front of it. -/
def lineAt (source : String) (offset : Nat) : Nat :=
  1 + (source.toList.take offset).count '\n'

/-- The line breaks that regular expressions among some tokens hide. -/
def hidden (ts : List Token) : Nat :=
  ((ts.filter (·.kind == .regex)).flatMap (·.text.toList)).count '\n'

theorem hidden_append (ts us : List Token) : hidden (ts ++ us) = hidden ts + hidden us := by
  simp [hidden]

theorem hidden_eq_zero {ts : List Token} :
    hidden ts = 0 ↔ ∀ r ∈ ts, r.kind = .regex → '\n' ∉ r.text.toList := by
  simp [hidden, List.count_eq_zero]

/-- An element ends the lines that are counted, and those that it hides. -/
theorem Reader.linesOf_add_hidden (rd : Reader) (e : Element) (x : List Char) :
    linesOf e x + hidden (rd.token? e x).toList = x.count '\n' := by
  cases ht : rd.token? e x with
  | none =>
      have he : e ≠ .token .regex := by
        rintro rfl
        cases ht
      simp [linesOf, he, hidden]
  | some t =>
      rcases token?_eq_some ht with ⟨hmade, hbreak⟩ | ⟨kind, rfl, rfl⟩
      · obtain ⟨-, rfl⟩ := breakToken?_eq_some hbreak
        have he : e ≠ .token .regex := by
          rintro rfl
          simp at hmade
        simp [linesOf, he, hidden]
      · by_cases hkind : kind = .regex <;> simp [linesOf, hidden, hkind, tokenOf]

theorem Reader.token?_line {e : Element} {x : List Char} (h : rd.token? e x = some t) :
    t.line = rd.line := by
  rcases token?_eq_some h with ⟨-, hbreak⟩ | ⟨kind, -, rfl⟩
  · obtain ⟨-, rfl⟩ := breakToken?_eq_some hbreak
    rfl
  · rfl

/-- The line of a token and the line breaks hidden in front of it make up all line breaks in front
of it. -/
theorem lex_line (ht : t ∈ lex rd s) : ∃ ts us, lex rd s = ts ++ t :: us ∧
    t.line + hidden ts = rd.line + (s.take (t.start - rd.offset)).count '\n' := by
  fun_induction lex rd s with
  | case1 => cases ht
  | case2 rd c r found x ih =>
      have hx : x ++ found.2 = c :: r :=
        upTo_append ((Element.next_suffix rd.regexAllowed c r).trans (List.suffix_cons c r))
      rcases List.mem_append.1 ht with ht | ht
      · rw [Option.mem_toList] at ht
        refine ⟨[], _, by rw [ht]; rfl, ?_⟩
        simp [Reader.token?_line ht, Reader.token?_start ht, hidden]
      · obtain ⟨ts, us, hsplit, hline⟩ := ih ht
        refine ⟨(rd.token? found.1 x).toList ++ ts, us, by rw [hsplit, List.append_assoc], ?_⟩
        have hstart := mem_lex_start ht
        have hlines := rd.linesOf_add_hidden found.1 x
        simp only [Reader.advance] at hline hstart
        have hfar : x.length ≤ t.start - rd.offset := by omega
        rw [← hx, List.take_append, List.take_of_length_le hfar, List.count_append, hidden_append,
          Nat.sub_sub]
        omega

/-! ## The tokens in front of an offset -/

/-- No regular expression in front of an offset hides a line break. -/
def NothingHidden (source : String) (offset : Nat) : Prop :=
  ∀ r ∈ tokens source, r.kind = .regex → r.stop ≤ offset → '\n' ∉ r.text.toList

/-- The tokens in front of a token are those that end in front of it. -/
theorem mem_front_iff {source : String} {ts us : List Token} {r : Token}
    (hsplit : tokens source = ts ++ t :: us) : r ∈ ts ↔ r ∈ tokens source ∧ r.stop ≤ t.start := by
  have hcut : Cut [] 0 source.toList (tokens source) := lex_cut .start source.toList
  have hlt : ∀ u ∈ tokens source, u.start < u.stop := by
    intro u hu
    obtain ⟨_, _, _, -, hspans⟩ := hcut.spans hu
    exact hspans.start_lt_stop
  have hordered := hcut.ordered
  rw [hsplit] at hordered hlt ⊢
  obtain ⟨-, htail, hfront⟩ := List.pairwise_append.1 hordered
  refine ⟨fun hr => ⟨List.mem_append_left _ hr, hfront r hr t List.mem_cons_self⟩, ?_⟩
  rintro ⟨hr, hstop⟩
  have hrlt := hlt r hr
  have htlt := hlt t (by simp)
  rcases List.mem_append.1 hr with hr | hr
  · exact hr
  · rcases List.mem_cons.1 hr with rfl | hr
    · omega
    · have hbehind := (List.pairwise_cons.1 htail).1 r hr
      omega

theorem line_eq_iff {source : String} (ht : t ∈ tokens source) :
    t.line = lineAt source t.start ↔ NothingHidden source t.start := by
  obtain ⟨ts, us, hsplit, hline⟩ := lex_line ht
  have hexact : t.line + hidden ts = lineAt source t.start := hline
  calc t.line = lineAt source t.start ↔ hidden ts = 0 := by omega
    _ ↔ ∀ r ∈ ts, r.kind = .regex → '\n' ∉ r.text.toList := hidden_eq_zero
    _ ↔ NothingHidden source t.start := by
        simp only [mem_front_iff hsplit, NothingHidden]
        exact ⟨fun h r hr hk hs => h r ⟨hr, hs⟩ hk, fun h r hr hk => h r hr.1 hk hr.2⟩

/-! ## Tokens and declarations -/

/-- A declaration stands at a site, and it carries the line of its name exactly if no regular expression
in front of the name hides a line break. -/
structure Declaration.LinedAt (source : String) (d : Declaration) (x : Site) : Prop
    extends d.StandsAt source x where
  lined : ∀ t, (tokens source)[x.name]? = some t →
    (d.line = lineAt source t.start ↔ NothingHidden source t.start)

theorem Declaration.StandsAt.linedAt {source : String} {d : Declaration} {x : Site}
    (h : d.StandsAt source x) : d.LinedAt source x := by
  refine ⟨h, fun t ht => ?_⟩
  obtain ⟨u, hu, -, -, hline⟩ := h.name
  obtain rfl : t = u := Option.some.inj (ht.symm.trans hu)
  rw [← hline]
  exact line_eq_iff (List.mem_of_getElem? ht)

/-- A token carries the line that it starts on exactly if no regular expression in front of it hides a
line break, and so does a declaration with its name. -/
theorem lines_right_iff (source : String) :
    (∀ t ∈ tokens source, t.line = lineAt source t.start ↔ NothingHidden source t.start) ∧
      ∃ sites : List Site, List.Forall₂ (Declaration.LinedAt source) (declarations source) sites ∧
        sites.Pairwise fun x y => x.name < y.name := by
  refine ⟨fun t ht => line_eq_iff ht, ?_⟩
  obtain ⟨xs, hxs⟩ := statementsOf_sited source
  refine ⟨xs, ?_, hxs.ordered.imp And.left⟩
  exact (hxs.standsAt (declarations_of_bound source _ _)).imp fun _ _ h => h.linedAt

example : (tokens "\x60\n\x60; /*\n*/ a").map (·.line) = [1, 2, 2, 3] := by decide +kernel

/-- A backslash hides the line break in a regular expression, and the line of what stands behind it is
one too few. -/
theorem lines_wrong_behind_regex :
    (∃ t ∈ tokens "/\\\n/;", t.line ≠ lineAt "/\\\n/;" t.start) ∧
      ∃ t ∈ tokens "const r = /\\\n/;\nconst a = 1;\n",
        ∃ d ∈ declarations "const r = /\\\n/;\nconst a = 1;\n", t.kind = .word ∧ t.text = d.name ∧
          d.name = "a" ∧ d.line ≠ lineAt "const r = /\\\n/;\nconst a = 1;\n" t.start := by
  decide +kernel

end TableRoster.Source
