import TableRoster.Source.Lexer

/-! # What an element is

All that the first element of a text can be, with what it says of the text. -/

namespace TableRoster.Source

open Text

/-- The characters that start a string or a template. -/
def quotes : List Char :=
  ['\x27', '\x22', '\x60']

/-- What starts neither a blank, a comment, a string nor a template. -/
structure Bare (c : Char) (r : List Char) : Prop where
  not_break : c ≠ '\n'
  not_quote : c ∉ quotes
  not_comment : c = '/' → ∀ d ∈ ['/', '*'], r.head? ≠ some d

/-- The first element of the text `c :: r`, in front of the rest of it. -/
inductive Starts (k : Bool) : Char → List Char → Element → List Char → Prop
  | lineBreak {r : List Char} : Starts k '\n' r .lineBreak r
  | blank {c : Char} {r : List Char} (h : c ∈ blanks) : Starts k c r .blank r
  | line {r : List Char} : Starts k '/' ('/' :: r) .comment (afterLine ('/' :: r))
  | comment {r : List Char} : Starts k '/' ('*' :: r) .comment (afterComment r)
  | string {c : Char} {r : List Char} (h : c ∈ ['\x27', '\x22']) :
      Starts k c r (.token .string) (afterString c r)
  | template {r : List Char} : Starts k '\x60' r (.token .template) (afterTemplate [.template] r)
  | regex {r rest : List Char} (hb : Bare '/' r) (hk : k = true)
      (h : afterRegex false r = some rest) : Starts k '/' r (.token .regex) rest
  | word {c : Char} {r : List Char} (h : startsWord c = true) :
      Starts k c r (.token .word) (r.dropWhile continuesWord)
  | number {c : Char} {r : List Char} (h : isDecimal c = true) :
      Starts k c r (.token .number) (r.dropWhile continuesNumber)
  | mark {c : Char} {r m : List Char} (hb : Bare c r) (h : markAt? (c :: r) = some m)
      (hr : regexAt? k c r = none) : Starts k c r (.token .mark) (r.drop (m.length - 1))
  | stray {c : Char} {r : List Char} (hb : Bare c r) (h : markAt? (c :: r) = none) :
      Starts k c r .stray r

/-- The first element of a text that starts no line break, blank, comment, string, template or regular
expression. -/
def Element.plain (c : Char) (r : List Char) : Element × List Char :=
  if startsWord c then (.token .word, r.dropWhile continuesWord)
  else if isDecimal c then (.token .number, r.dropWhile continuesNumber)
  else match markAt? (c :: r) with
    | some m => (.token .mark, r.drop (m.length - 1))
    | none => (.stray, r)

theorem Element.plain_starts {k : Bool} {c : Char} {r rest : List Char} {e : Element} (hb : Bare c r)
    (hr : regexAt? k c r = none) (h : Element.plain c r = (e, rest)) : Starts k c r e rest := by
  unfold Element.plain at h
  split at h
  · cases h
    exact .word ‹_›
  split at h
  · cases h
    exact .number ‹_›
  split at h
  · cases h
    exact .mark hb ‹_› hr
  · cases h
    exact .stray hb ‹_›

theorem Element.next_starts {k : Bool} {c : Char} {r rest : List Char} {e : Element}
    (h : Element.next k c r = (e, rest)) : Starts k c r e rest := by
  unfold Element.next at h
  split at h
  · subst_vars
    cases h
    exact .lineBreak
  rename_i hbreak
  split at h
  · rename_i hblank
    cases h
    exact .blank (by simpa using hblank)
  split at h
  · rename_i hline
    obtain ⟨rfl, hline⟩ := hline
    obtain ⟨s, rfl⟩ := List.head?_eq_some_iff.1 hline
    cases h
    exact .line
  rename_i hline
  split at h
  · rename_i hcomment
    obtain ⟨rfl, hcomment⟩ := hcomment
    obtain ⟨s, rfl⟩ := List.head?_eq_some_iff.1 hcomment
    cases h
    exact .comment
  rename_i hcomment
  split at h
  · rename_i hstring
    cases h
    exact .string (by simpa using hstring)
  rename_i hstring
  split at h
  · subst_vars
    cases h
    exact .template
  rename_i htemplate
  have hb : Bare c r := by
    refine ⟨hbreak, ?_, ?_⟩
    · simpa [quotes, not_or, and_assoc] using And.intro (not_or.1 hstring) htemplate
    · rintro rfl
      simpa using And.intro (fun h => hline ⟨rfl, h⟩) fun h => hcomment ⟨rfl, h⟩
  split at h
  · rename_i hregex
    cases h
    unfold regexAt? at hregex
    split at hregex
    · rename_i hc
      obtain ⟨rfl, hk⟩ := hc
      exact .regex hb hk hregex
    · cases hregex
  rename_i hregex
  exact Element.plain_starts hb hregex h

/-- What a mark is read from is the mark. -/
theorem Starts.mark_text {k : Bool} {c : Char} {r rest x : List Char}
    (h : Starts k c r (.token .mark) rest) (hx : c :: r = x ++ rest) :
    Bare c r ∧ x ∈ marks := by
  cases h with
  | @mark _ _ m hb hm _ =>
      refine ⟨hb, ?_⟩
      unfold markAt? at hm
      have hmem := List.mem_of_find?_eq_some hm
      have hfront := List.find?_some hm
      obtain ⟨t, ht⟩ := List.isPrefixOf_iff_prefix.1 hfront
      have hdrop : r.drop (m.length - 1) = t := by
        cases m with
        | nil => exact absurd hmem (by decide)
        | cons d m =>
            obtain ⟨-, rfl⟩ := List.cons.inj ht
            simp
      rw [hdrop, ← ht] at hx
      rwa [← List.append_cancel_right hx]

end TableRoster.Source
