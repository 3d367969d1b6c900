import Mathlib.Data.List.Basic
import TableRoster.Proofs.Source.Element
import TableRoster.Proofs.Source.Words

/-! # What is no token

Any text is cut into tokens and trivia, one behind the other. Trivia is white space, comments and
characters that no token starts with. -/

namespace TableRoster.Source

open Text

/-! ## Trivia -/

/-- A character that no token starts with. -/
structure Stray (c : Char) : Prop where
  not_quote : c ∉ quotes
  not_word : startsWord c = false
  not_number : isDecimal c = false
  not_mark : ∀ m ∈ marks, m.head? ≠ some c

/-- What can stand in front of a text and is passed over: a line break, a blank, a comment or a stray
character. A comment ends in front of the first line break, or behind the first closing, and one that
is not closed goes on to the end. -/
inductive Trivia : List Char → List Char → Prop
  | lineBreak {rest : List Char} : Trivia ['\n'] rest
  | blank {c : Char} {rest : List Char} (h : c ∈ blanks) : Trivia [c] rest
  | line {x rest : List Char} (h : '\n' ∉ x) (hr : rest = [] ∨ rest.head? = some '\n') :
      Trivia ('/' :: '/' :: x) rest
  | comment {x rest : List Char} (h : ¬ ['*', '/'] <:+: x) :
      Trivia ('/' :: '*' :: (x ++ ['*', '/'])) rest
  | unclosed {x : List Char} (h : ¬ ['*', '/'] <:+: x) : Trivia ('/' :: '*' :: x) []
  | stray {c : Char} {rest : List Char} (h : Stray c) : Trivia [c] rest

/-- A block comment goes on to the first closing, or to the end of the text. -/
theorem afterComment_cases (s : List Char) :
    (∃ x, s = x ++ '*' :: '/' :: afterComment s ∧ ¬ ['*', '/'] <:+: x) ∨
      afterComment s = [] ∧ ¬ ['*', '/'] <:+: s := by
  fun_induction afterComment s with
  | case1 => exact .inr ⟨rfl, by simp⟩
  | case2 r => exact .inl ⟨[], rfl, by simp⟩
  | case3 c r hopen ih =>
      -- a closing at the front would have ended the comment here
      have hfront : ∀ x, ['*', '/'] <+: c :: x → ∀ t, r ≠ x ++ t := by
        rintro x ⟨y, hy⟩ t rfl
        obtain ⟨rfl, rfl⟩ := List.cons.inj hy
        exact hopen _ rfl rfl
      rcases ih with ⟨x, hx, hn⟩ | ⟨hnil, hn⟩
      · refine .inl ⟨c :: x, by rw [List.cons_append, ← hx], ?_⟩
        rw [List.infix_cons_iff, not_or]
        exact ⟨fun h => hfront x h _ hx, hn⟩
      · refine .inr ⟨hnil, ?_⟩
        rw [List.infix_cons_iff, not_or]
        exact ⟨fun h => hfront r h [] (List.append_nil r).symm, hn⟩

theorem Element.not_startsWord_of_stray {k : Bool} {c : Char} {r rest : List Char}
    (h : Element.next k c r = (.stray, rest)) : startsWord c = false ∧ isDecimal c = false := by
  unfold Element.next at h
  grind

/-- What starts a mark is a mark by itself, so what starts none is stray. -/
theorem Element.stray_of_next {k : Bool} {c : Char} {r rest : List Char}
    (h : Element.next k c r = (.stray, rest)) : Stray c := by
  obtain ⟨hw, hd⟩ := Element.not_startsWord_of_stray h
  cases Element.next_starts h with
  | stray hb hm =>
      refine ⟨hb.not_quote, hw, hd, fun m hmem hc => ?_⟩
      have halone : ∀ m ∈ marks, (m.head?.map ([·])).all (· ∈ marks) := by decide +kernel
      have hmark : [c] ∈ marks := by simpa [hc] using halone m hmem
      exact absurd (List.find?_eq_none.1 hm [c] hmark) (by simp)

theorem eq_singleton_of_cons {d : Char} {x rest : List Char} (h : d :: rest = x ++ rest) : x = [d] :=
  (List.append_left_inj rest).1 h.symm

theorem Element.mem_of_lineBreak {k : Bool} {c : Char} {r x rest : List Char}
    (h : Element.next k c r = (.lineBreak, rest)) (hx : c :: r = x ++ rest) : '\n' ∈ x := by
  cases Element.next_starts h with
  | lineBreak => simp [eq_singleton_of_cons hx]

/-- An element that is no token is trivia. -/
theorem Element.next_trivia {k : Bool} {c : Char} {r x rest : List Char} {e : Element}
    (h : Element.next k c r = (e, rest)) (hx : c :: r = x ++ rest) :
    (∃ kind, e = .token kind) ∨ Trivia x rest := by
  cases Element.next_starts h with
  | lineBreak => exact .inr (eq_singleton_of_cons hx ▸ .lineBreak)
  | blank hc => exact .inr (eq_singleton_of_cons hx ▸ .blank hc)
  | @line r =>
      right
      have hsplit : '/' :: '/' :: r = ('/' :: '/' :: r.takeWhile (· ≠ '\n')) ++ afterLine ('/' :: r) := by
        simp [afterLine, List.takeWhile_append_dropWhile]
      rw [← List.append_cancel_right (hsplit.symm.trans hx)]
      refine .line ?_ ?_
      · intro hmem
        simpa using List.all_eq_true.1 List.all_takeWhile _ hmem
      · have hnot := List.head?_dropWhile_not (· ≠ '\n') ('/' :: r)
        rw [← afterLine] at hnot
        cases hr : afterLine ('/' :: r) with
        | nil => exact .inl rfl
        | cons d s => simpa [hr] using hnot
  | @comment r =>
      right
      rcases afterComment_cases r with ⟨y, hy, hn⟩ | ⟨hnil, hn⟩
      · have hsplit : '/' :: '*' :: r = ('/' :: '*' :: (y ++ ['*', '/'])) ++ afterComment r := by
          simpa using hy
        rw [← List.append_cancel_right (hsplit.symm.trans hx)]
        exact .comment hn
      · rw [hnil, List.append_nil] at hx
        rw [hnil, ← hx]
        exact .unclosed hn
  | string | template | regex | word | number | mark => exact .inl ⟨_, rfl⟩
  | stray => exact .inr (eq_singleton_of_cons hx ▸ .stray (Element.stray_of_next h))

/-! ## Tokens and trivia -/

/-- A token that is the text `x`, at the offset `o`. -/
structure Token.Spans (t : Token) (o : Nat) (x : List Char) : Prop where
  ne_nil : x ≠ []
  start : t.start = o
  stop : t.stop = o + x.length
  text : t.text = String.ofList x

/-- In front of `w`, the text `s` at the offset `o` is cut into tokens and trivia, one behind the
other, and the tokens are `ts`. Trivia with a line break in it can make one, at its first character. -/
inductive Cut (w : List Char) : Nat → List Char → List Token → Prop
  | nil {o : Nat} : Cut w o [] []
  | token {o : Nat} {x s : List Char} {t : Token} {ts : List Token} (ht : t.Spans o x)
      (rest : Cut w (o + x.length) s ts) : Cut w o (x ++ s) (t :: ts)
  | trivia {o : Nat} {x s : List Char} {made : Option Token} {ts : List Token}
      (h : Trivia x (s ++ w)) (hmade : ∀ t ∈ made, '\n' ∈ x ∧ t.isBreak ∧ t.Spans o (x.take 1))
      (rest : Cut w (o + x.length) s ts) : Cut w o (x ++ s) (made.toList ++ ts)

namespace Token.Spans

variable {t : Token} {o : Nat} {x pre : List Char}

theorem start_lt_stop (h : t.Spans o x) : t.start < t.stop := by
  have := List.length_pos_iff.2 h.ne_nil
  rw [h.start, h.stop]
  omega

theorem text_eq (h : t.Spans pre.length x) (rest : List Char) :
    t.text = slice (pre ++ (x ++ rest)) t.start t.stop := by
  rw [h.text, h.start, h.stop]
  simp [slice]

end Token.Spans

namespace Cut

variable {w s pre : List Char} {o i : Nat} {t : Token} {ts : List Token}

/-- Each token lies in the text, and is what the text holds there. -/
theorem spans (h : Cut w o s ts) (ht : t ∈ ts) :
    ∃ a x b, s = a ++ (x ++ b) ∧ t.Spans (o + a.length) x := by
  induction h with
  | nil => cases ht
  | @token o x s u ts hu _ ih =>
      rcases List.mem_cons.1 ht with rfl | ht
      · exact ⟨[], x, s, rfl, hu⟩
      · obtain ⟨a, y, b, rfl, hspans⟩ := ih ht
        refine ⟨x ++ a, y, b, by simp, ?_⟩
        rwa [List.length_append, ← Nat.add_assoc]
  | @trivia o x s made ts _ hmade _ ih =>
      rcases List.mem_append.1 ht with ht | ht
      · obtain ⟨-, -, hspans⟩ := hmade t (Option.mem_toList.1 ht)
        refine ⟨[], x.take 1, x.drop 1 ++ s, ?_, hspans⟩
        rw [List.nil_append, ← List.append_assoc, List.take_append_drop]
      · obtain ⟨a, y, b, rfl, hspans⟩ := ih ht
        refine ⟨x ++ a, y, b, by simp, ?_⟩
        rwa [List.length_append, ← Nat.add_assoc]

theorem le_start (h : Cut w o s ts) (ht : t ∈ ts) : o ≤ t.start := by
  obtain ⟨a, x, b, -, hspans⟩ := h.spans ht
  rw [hspans.start]
  omega

/-- No token ends behind where the next one starts. -/
theorem ordered (h : Cut w o s ts) : ts.Pairwise fun t u => t.stop ≤ u.start := by
  induction h with
  | nil => exact .nil
  | token ht rest ih =>
      refine .cons (fun u hu => ?_) ih
      rw [ht.stop]
      exact rest.le_start hu
  | @trivia o x s made ts _ hmade rest ih =>
      rw [List.pairwise_append]
      refine ⟨by cases made <;> simp, ih, fun t ht u hu => ?_⟩
      obtain ⟨-, -, hspans⟩ := hmade t (Option.mem_toList.1 ht)
      have hle := rest.le_start hu
      rw [hspans.stop, List.length_take]
      omega

/-- What is in no token is in trivia, behind what is cut into tokens and trivia itself. -/
theorem cover (h : Cut w o s ts) (ho : o ≤ i) (hi : i < o + s.length) :
    (∃ t ∈ ts, t.start ≤ i ∧ i < t.stop) ∨
      ∃ a x b us, s = a ++ (x ++ b) ∧ us <+: ts ∧ Cut (x ++ (b ++ w)) o a us ∧ Trivia x (b ++ w) ∧
        o + a.length ≤ i ∧ i < o + a.length + x.length := by
  induction h with
  | nil => simp at hi; omega
  | @token o x s t ts ht rest ih =>
      by_cases hx : i < o + x.length
      · exact .inl ⟨t, by simp, by rw [ht.start]; exact ho, by rw [ht.stop]; exact hx⟩
      rcases ih (by omega) (by simp at hi; omega) with
        ⟨t', ht', hcover⟩ | ⟨a, y, b, us, rfl, hus, hcut, htriv, hfrom, hto⟩
      · exact .inl ⟨t', List.mem_cons_of_mem _ ht', hcover⟩
      · refine .inr ⟨x ++ a, y, b, t :: us, by simp, ?_, .token ht hcut, htriv, ?_, ?_⟩
        · exact List.cons_prefix_cons.2 ⟨rfl, hus⟩
        all_goals simp; omega
  | @trivia o x s made ts h hmade rest ih =>
      by_cases hx : i < o + x.length
      · exact .inr ⟨[], x, s, [], rfl, List.nil_prefix, .nil, h, by simpa using ho, by simpa using hx⟩
      rcases ih (by omega) (by simp at hi; omega) with
        ⟨t', ht', hcover⟩ | ⟨a, y, b, us, rfl, hus, hcut, htriv, hfrom, hto⟩
      · exact .inl ⟨t', List.mem_append_right _ ht', hcover⟩
      · refine .inr ⟨x ++ a, y, b, made.toList ++ us, by simp, ?_, .trivia ?_ hmade hcut, htriv, ?_, ?_⟩
        · exact (List.prefix_append_right_inj _).2 hus
        · simpa using h
        all_goals simp; omega

end Cut

/-! ## Every text is cut -/

theorem Element.ne_nil_of_next {k : Bool} {c : Char} {r x rest : List Char} {e : Element}
    (h : Element.next k c r = (e, rest)) (hx : c :: r = x ++ rest) : x ≠ [] := by
  rintro rfl
  have hle := (Element.next_suffix k c r).length_le
  rw [h, ← List.nil_append rest, ← hx, List.length_cons] at hle
  omega

/-- What a text that is no token makes is a line break, at its first character. -/
theorem Reader.token?_spans {rd : Reader} {c : Char} {r x rest : List Char} {e : Element} {t : Token}
    (hnext : Element.next rd.regexAllowed c r = (e, rest)) (hx : c :: r = x ++ rest)
    (he : ∀ kind, e ≠ .token kind) (h : rd.token? e x = some t) :
    '\n' ∈ x ∧ t.isBreak ∧ t.Spans rd.offset (x.take 1) := by
  have hne := Element.ne_nil_of_next hnext hx
  rcases Reader.token?_eq_some h with ⟨hmade, hbreak⟩ | ⟨kind, rfl, -⟩
  · obtain ⟨-, rfl⟩ := Reader.breakToken?_eq_some hbreak
    refine ⟨?_, rfl, by simpa using hne, rfl, ?_, rfl⟩
    · rcases hmade with rfl | ⟨-, hmem⟩
      · exact Element.mem_of_lineBreak hnext hx
      · exact hmem
    · rw [List.length_take, Nat.min_eq_left (List.length_pos_iff.2 hne)]
  · exact absurd rfl (he kind)

theorem lex_cut (rd : Reader) (s : List Char) : Cut [] rd.offset s (lex rd s) := by
  fun_induction lex rd s with
  | case1 => exact .nil
  | case2 rd c r found x ih =>
      have hx : x ++ found.2 = c :: r :=
        upTo_append ((Element.next_suffix rd.regexAllowed c r).trans (List.suffix_cons c r))
      have hnext : Element.next rd.regexAllowed c r = (found.1, found.2) := rfl
      rw [← hx]
      by_cases htoken : ∃ kind, found.1 = .token kind
      · obtain ⟨kind, hkind⟩ := htoken
        rw [hkind] at ih ⊢
        exact .token ⟨Element.ne_nil_of_next hnext hx.symm, rfl, rfl, rfl⟩ ih
      · have htriv := (Element.next_trivia hnext hx.symm).resolve_left htoken
        refine .trivia (by simpa using htriv) (fun t ht => ?_) ih
        exact Reader.token?_spans hnext hx.symm (fun kind h => htoken ⟨kind, h⟩) ht

/-! ## Line breaks -/

theorem Element.kind_ne_lineBreak {k : Bool} {c : Char} {r rest : List Char} {kind : Kind}
    (h : Element.next k c r = (.token kind, rest)) : kind ≠ .lineBreak := by
  cases Element.next_starts h <;> simp

theorem Reader.not_behindBreak_of_isBreak {rd : Reader} {c : Char} {r x rest : List Char} {e : Element}
    {t : Token} (hnext : Element.next rd.regexAllowed c r = (e, rest)) (h : rd.token? e x = some t)
    (hb : t.isBreak) : rd.behindBreak = false := by
  rcases Reader.token?_eq_some h with ⟨-, hbreak⟩ | ⟨kind, rfl, rfl⟩
  · exact (Reader.breakToken?_eq_some hbreak).1
  · exact absurd (by simpa [Token.isBreak, tokenOf] using hb) (Element.kind_ne_lineBreak hnext)

theorem lex_breaks (rd : Reader) (s : List Char) :
    (rd.last.toList ++ lex rd s).IsChain fun t u => ¬ (t.isBreak ∧ u.isBreak) := by
  fun_induction lex rd s with
  | case1 rd => cases rd.last <;> simp
  | case2 rd c r found x ih =>
      cases ht : rd.token? found.1 x with
      | none => simpa [Reader.advance, ht] using ih
      | some t =>
          simp only [Reader.advance, ht, Option.some_or, Option.toList_some, List.singleton_append] at ih ⊢
          cases hl : rd.last with
          | none => exact ih
          | some u =>
              refine List.isChain_cons_cons.2 ⟨?_, ih⟩
              rintro ⟨hu, hb⟩
              have hfree := Reader.not_behindBreak_of_isBreak rfl ht hb
              simp [Reader.behindBreak, hl, hu] at hfree

/-! ## The tokens of a text -/

/-- The character at this offset lies in trivia, behind what is cut into the first tokens and
trivia. -/
def InTrivia (source : String) (i : Nat) : Prop :=
  ∃ a x b ts, source.toList = a ++ (x ++ b) ∧ ts <+: tokens source ∧ Cut (x ++ b) 0 a ts ∧
    Trivia x b ∧ a.length ≤ i ∧ i < a.length + x.length

/-- The tokens of a text stand in it one behind the other, and nothing between them is lost but
trivia. -/
theorem tokens_cover (source : String) :
    (∀ t ∈ tokens source, t.start < t.stop ∧ t.stop ≤ source.length ∧
        t.text = slice source.toList t.start t.stop) ∧
      (tokens source).Pairwise (fun t u => t.stop ≤ u.start) ∧
      (tokens source).IsChain (fun t u => ¬ (t.isBreak ∧ u.isBreak)) ∧
      ∀ i < source.length, (∃ t ∈ tokens source, t.start ≤ i ∧ i < t.stop) ∨ InTrivia source i := by
  have hcut : Cut [] 0 source.toList (tokens source) := lex_cut .start source.toList
  refine ⟨fun t ht => ?_, hcut.ordered, lex_breaks .start source.toList, fun i hi => ?_⟩
  · obtain ⟨a, x, b, hsplit, hspans⟩ := hcut.spans ht
    rw [Nat.zero_add] at hspans
    refine ⟨hspans.start_lt_stop, ?_, hsplit ▸ hspans.text_eq b⟩
    rw [hspans.stop, ← String.length_toList, hsplit]
    simp
  · rcases hcut.cover (Nat.zero_le i) (by simpa [String.length_toList] using hi) with hin | ⟨a, x, b, ts, h⟩
    · exact .inl hin
    · exact .inr ⟨a, x, b, ts, by simpa using h⟩

end TableRoster.Source
