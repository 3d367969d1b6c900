import TableRoster.Proofs.Source.Element

/-! # What an element takes does not depend on what follows

An element of a text may look ahead. Where a text in front of a semicolon is read up to that
semicolon, it is read alike in front of every text that starts at a seam. -/

namespace TableRoster.Source

open Text

/-! ## Splitting in front of a rest -/

theorem front_of_length_le {α : Type} {x r s v : List α} (h : s ++ v = x ++ r)
    (hl : x.length ≤ s.length) : ∃ m, s = x ++ m ∧ r = m ++ v := by
  rcases List.append_eq_append_iff.1 h.symm with ⟨m, rfl, rfl⟩ | ⟨m, rfl, rfl⟩
  · exact ⟨m, rfl, rfl⟩
  · have hm : m = [] := by
      simp only [List.length_append] at hl
      exact List.length_eq_zero_iff.1 (by omega)
    subst hm
    exact ⟨[], by simp, by simp⟩

theorem front_of_suffix {α : Type} {x r s t v : List α} (h : x ++ r = s ++ v)
    (hr : t ++ v <:+ r) : ∃ m, s = x ++ m ∧ r = m ++ v := by
  refine front_of_length_le h.symm ?_
  have hl := congrArg List.length h
  have hle := hr.length_le
  simp only [List.length_append] at hl hle
  omega

/-- Two characters that do not stand at the end of `m ++ v` do not come to stand there with `w`. -/
theorem no_pair {c x y : Char} {m v w : List Char} (hw : w.head? ≠ some y)
    (h : ∀ r, c = x → m ++ v = y :: r → False) : ∀ r, c = x → m ++ w = y :: r → False := by
  intro r hc hm
  cases m with
  | nil => exact hw (by rw [List.nil_append] at hm; rw [hm]; rfl)
  | cons d m =>
      cases hm
      exact h _ hc rfl

theorem ne_backslash {c : Char} {r : List Char} (h1 : c = '\\' → r = [] → False)
    (h2 : ∀ d s, c = '\\' → r = d :: s → False) : c ≠ '\\' := by
  rintro rfl
  cases r with
  | nil => exact h1 rfl rfl
  | cons d s => exact h2 d s rfl rfl

/-- A row that is dropped up to its rest, which may or may not be dropped from on. -/
theorem dropWhile_front {p : Char → Bool} {r s u w : List Char} {a : Char}
    (hw : p a = false → w.dropWhile p = w)
    (h : (r ++ a :: u).dropWhile p = s ++ a :: u) : (r ++ w).dropWhile p = s ++ w := by
  rw [List.dropWhile_append] at h ⊢
  split at h
  · rename_i hr
    rw [if_pos hr]
    cases ha : p a with
    | true =>
        have hl := congrArg List.length h
        have hle := (List.dropWhile_suffix p (l := u)).length_le
        simp only [List.dropWhile_cons, ha, ↓reduceIte, List.length_append, List.length_cons] at hl
        omega
    | false =>
        have hs : s = [] := by simpa [ha] using h
        rw [hs, hw ha, List.nil_append]
  · rename_i hr
    rw [if_neg hr, List.append_cancel_right h]

/-! ## Seams -/

/-- Characters that go on with nothing that stands before them. -/
def seamChars : List Char :=
  ['\n', ' ', ';', ',', ')', ']', '\x7d']

/-- A text that goes on with nothing that stands before it, and in which no regular expression
that was opened before it closes. -/
inductive Seam : List Char → Prop
  | intro {d : Char} {v : List Char} (char : d ∈ seamChars)
      (opened : ∀ k, afterRegex k (d :: v) = none) (escaped : ∀ k, afterRegex k v = none) :
      Seam (d :: v)

theorem seamChars_not_in_mark {d : Char} (hd : d ∈ seamChars) : ∀ m ∈ marks, d ∉ m.tail := by
  intro m hm hdm
  have h : (marks.any fun m => m.tail.any seamChars.contains) = false := by decide
  rw [List.any_eq_false] at h
  refine h m hm ?_
  rw [List.any_eq_true]
  exact ⟨d, hdm, List.contains_iff_mem.2 hd⟩

namespace Seam

variable {w : List Char}

theorem afterRegex (hw : Seam w) (k : Bool) : Source.afterRegex k w = none := by
  cases hw with
  | intro _ ho _ => exact ho k

theorem afterRegex_escape (hw : Seam w) (k : Bool) : Source.afterRegex k ('\\' :: w) = none := by
  cases hw with
  | intro _ _ he => exact he k

end Seam

/-! ## Borders -/

/-- Characters that go on with no word, number, comment or template that stands before them. -/
def borderChars : List Char :=
  '=' :: seamChars

/-- A text that goes on with nothing that stands before it, but for a mark or a regular
expression. -/
def Border (w : List Char) : Prop :=
  ∃ d v, w = d :: v ∧ d ∈ borderChars

theorem borderChars_not_word : borderChars.any isWord = false := by decide

theorem borderChars_not_continuesWord : borderChars.any continuesWord = false := by decide

theorem borderChars_not_continuesNumber : borderChars.any continuesNumber = false := by decide

namespace Border

variable {w : List Char}

theorem head_ne (hw : Border w) {d : Char} (hd : d ∉ borderChars) : w.head? ≠ some d := by
  obtain ⟨c, v, rfl, hc⟩ := hw
  rintro h
  cases h
  exact hd hc

theorem dropWhile (hw : Border w) {p : Char → Bool} (hp : borderChars.any p = false) :
    w.dropWhile p = w := by
  obtain ⟨c, v, rfl, hc⟩ := hw
  rw [List.any_eq_false] at hp
  simp [hp _ hc]

end Border

theorem Seam.border {w : List Char} (hw : Seam w) : Border w := by
  cases hw with
  | intro hc _ _ => exact ⟨_, _, rfl, List.mem_cons_of_mem _ hc⟩

/-! ## Literals and comments -/

variable {s t u w : List Char} {a : Char}

theorem afterString_append {q : Char} {s' : List Char} (h : afterString q s' = t ++ ';' :: u)
    (hs : s' = s ++ ';' :: u) : afterString q (s ++ w) = t ++ w := by
  fun_induction afterString q s' generalizing s
  case case1 | case2 => simp at h
  case case3 ih =>
      obtain ⟨m, rfl, rfl⟩ := front_of_suffix (x := [_, _]) hs (h ▸ afterString_suffix _ _)
      simpa [afterString] using ih h rfl
  case case4 r h1 h2 =>
      obtain ⟨m, rfl, rfl⟩ := front_of_suffix (x := [_]) hs ⟨[], h.symm⟩
      rw [List.append_cancel_right h]
      have h3 := ne_backslash h1 h2
      simp [afterString, h3]
  case case5 r h1 h2 hq =>
      obtain ⟨m, rfl, rfl⟩ : ∃ m, s = '\n' :: m ∧ r = m ++ ';' :: u := by
        cases s with
        | nil => cases hs
        | cons d m => cases hs; exact ⟨m, rfl, rfl⟩
      have ht : t = '\n' :: m := by simpa using (List.append_cancel_right (h : _ = _)).symm
      rw [ht]
      simp [afterString, hq]
  case case6 c r h1 h2 hq hn ih =>
      obtain ⟨m, rfl, rfl⟩ := front_of_suffix (x := [_]) hs (h ▸ afterString_suffix _ _)
      have h3 := ne_backslash h1 h2
      simpa [afterString, h3, hq, hn] using ih h rfl

theorem afterComment_append (hw : Border w) {s' : List Char} (h : afterComment s' = t ++ a :: u)
    (hs : s' = s ++ a :: u) : afterComment (s ++ w) = t ++ w := by
  fun_induction afterComment s' generalizing s
  case case1 => simp at h
  case case2 r =>
      obtain ⟨m, rfl, rfl⟩ := front_of_suffix (x := ['*', '/']) hs ⟨[], h.symm⟩
      rw [List.append_cancel_right h]
      simp [afterComment]
  case case3 h1 ih =>
      obtain ⟨m, rfl, rfl⟩ := front_of_suffix (x := [_]) hs (h ▸ afterComment_suffix _)
      have h2 := no_pair (hw.head_ne (by decide)) h1
      simpa [afterComment, h2] using ih h rfl

theorem afterLine_append (h : afterLine (s ++ ';' :: u) = t ++ ';' :: u) :
    afterLine (s ++ w) = t ++ w :=
  dropWhile_front (fun ha => absurd ha (by decide)) h

theorem afterRegex_append_none (hw : Seam w) {k : Bool} {s' : List Char}
    (h : afterRegex k s' = none) (hs : s' = s ++ ';' :: u) : afterRegex k (s ++ w) = none := by
  fun_induction afterRegex k s' generalizing s
  case case1 => simp at hs
  case case2 =>
      cases s with
      | nil => cases hs
      | cons => simp at hs
  case case3 ih =>
      rcases s with _ | ⟨a, _ | ⟨b, m⟩⟩
      · exact hw.afterRegex _
      · cases hs
        exact hw.afterRegex_escape _
      · cases hs
        simpa [afterRegex] using ih h rfl
  case case4 k r h1 h2 =>
      cases s with
      | nil => exact hw.afterRegex _
      | cons a m =>
          cases hs
          simp [afterRegex]
  case case5 c r h1 h2 hc ih =>
      cases s with
      | nil => exact hw.afterRegex _
      | cons a m =>
          cases hs
          have h3 := ne_backslash h1 h2
          simpa [afterRegex, h3, hc] using ih h rfl
  case case6 => cases h
  case case7 k c r h1 h2 hc hk hq ih =>
      cases s with
      | nil => exact hw.afterRegex _
      | cons a m =>
          cases hs
          have h3 := ne_backslash h1 h2
          simpa [afterRegex, h3, hc, hk, hq] using ih h rfl

theorem afterRegex_append_some (hw : Border w) {k : Bool} {s' : List Char}
    (h : afterRegex k s' = some (t ++ a :: u)) (hs : s' = s ++ a :: u) :
    afterRegex k (s ++ w) = some (t ++ w) := by
  fun_induction afterRegex k s' generalizing s
  case case1 | case2 | case4 => cases h
  case case3 ih =>
      obtain ⟨m, rfl, rfl⟩ := front_of_suffix (x := [_, _]) hs (afterRegex_suffix h)
      simpa [afterRegex] using ih h rfl
  case case5 h1 h2 hc ih =>
      obtain ⟨m, rfl, rfl⟩ := front_of_suffix (x := [_]) hs (afterRegex_suffix h)
      have h3 := ne_backslash h1 h2
      simpa [afterRegex, h3, hc] using ih h rfl
  case case6 k r hk _ _ _ =>
      have h := Option.some.inj h
      obtain ⟨m, rfl, rfl⟩ := front_of_suffix (x := [_]) hs (h ▸ List.dropWhile_suffix _)
      have hd := hw.dropWhile (p := isWord) borderChars_not_word
      simpa [afterRegex, hk] using dropWhile_front (fun _ => hd) h
  case case7 h1 h2 hc hk hq ih =>
      obtain ⟨m, rfl, rfl⟩ := front_of_suffix (x := [_]) hs (afterRegex_suffix h)
      have h3 := ne_backslash h1 h2
      simpa [afterRegex, h3, hc, hk, hq] using ih h rfl

theorem afterTemplate_hole {n : Nat} {fs : List Frame} {c : Char} {r : List Char}
    (h1 : ∀ s, c = '/' → r = '/' :: s → False) (h2 : ∀ s, c = '/' → r = '*' :: s → False) :
    afterTemplate (.hole n :: fs) (c :: r)
      = if c = '\x27' ∨ c = '\x22' then afterTemplate (.string c :: .hole n :: fs) r
        else if c = '\x60' then afterTemplate (.template :: .hole n :: fs) r
        else if c = '\x7b' then afterTemplate (.hole (n + 1) :: fs) r
        else if c = '\x7d' then
          match n with
          | 0 => afterTemplate fs r
          | m + 1 => afterTemplate (.hole m :: fs) r
        else afterTemplate (.hole n :: fs) r := by
  cases n <;> rw [afterTemplate] <;> assumption

theorem afterTemplate_append (hw : Border w) {fs : List Frame} {s' : List Char}
    (h : afterTemplate fs s' = t ++ a :: u) (hs : s' = s ++ a :: u) :
    afterTemplate fs (s ++ w) = t ++ w := by
  fun_induction afterTemplate fs s' generalizing s
  case case1 =>
      subst hs
      rw [List.append_cancel_right h, afterTemplate]
  case case2 | case3 | case8 => simp at h
  case case4 ih | case5 ih | case9 ih | case14 ih | case16 ih | case17 ih =>
      obtain ⟨m, rfl, rfl⟩ := front_of_suffix (x := [_, _]) hs (h ▸ afterTemplate_suffix _ _)
      simpa [afterTemplate] using ih h rfl
  case case6 ih | case12 ih =>
      obtain ⟨m, rfl, rfl⟩ := front_of_suffix (x := [_]) hs (h ▸ afterTemplate_suffix _ _)
      simpa [afterTemplate] using ih h rfl
  case case7 h1 h2 h3 hc ih =>
      obtain ⟨m, rfl, rfl⟩ := front_of_suffix (x := [_]) hs (h ▸ afterTemplate_suffix _ _)
      have h4 := ne_backslash h1 h2
      have h5 := no_pair (hw.head_ne (by decide)) h3
      simpa [afterTemplate, h4, h5, hc] using ih h rfl
  case case10 h1 h2 hc ih | case11 h1 h2 hc ih =>
      obtain ⟨m, rfl, rfl⟩ := front_of_suffix (x := [_]) hs (h ▸ afterTemplate_suffix _ _)
      have h4 := ne_backslash h1 h2
      simpa [afterTemplate, h4, hc] using ih h rfl
  case case13 hc ih =>
      obtain ⟨m, rfl, rfl⟩ := front_of_suffix (x := [_]) hs (h ▸ afterTemplate_suffix _ _)
      simpa [afterTemplate, hc] using ih h rfl
  case case15 hc ih =>
      obtain ⟨m, rfl, rfl⟩ := front_of_suffix (x := [_]) hs (h ▸ afterTemplate_suffix _ _)
      have h5 := no_pair (hw.head_ne (by decide)) hc
      simpa [afterTemplate, h5] using ih h rfl
  case case19 ih | case20 ih | case21 ih | case22 ih =>
      obtain ⟨m, rfl, rfl⟩ := front_of_suffix (x := [_]) hs (h ▸ afterTemplate_suffix _ _)
      simpa [afterTemplate_hole] using ih h rfl
  case case18 h1 h2 hc ih =>
      obtain ⟨m, rfl, rfl⟩ := front_of_suffix (x := [_]) hs (h ▸ afterTemplate_suffix _ _)
      have h3 := no_pair (hw.head_ne (by decide)) h1
      have h4 := no_pair (hw.head_ne (by decide)) h2
      simpa [afterTemplate_hole, h3, h4, hc] using ih h rfl
  case case23 h1 h2 hq ht hb hb' ih =>
      obtain ⟨m, rfl, rfl⟩ := front_of_suffix (x := [_]) hs (h ▸ afterTemplate_suffix _ _)
      have h3 := no_pair (hw.head_ne (by decide)) h1
      have h4 := no_pair (hw.head_ne (by decide)) h2
      simpa [afterTemplate_hole, h3, h4, hq, ht, hb, hb'] using ih h rfl

/-! ## Marks -/

/-- The mark that a text starts with is the same in front of a character that no mark goes on with
behind the text. -/
theorem markAt?_append {s v : List Char} {d : Char} (h : ∀ m ∈ marks, ¬ s ++ [d] <+: m) :
    markAt? (s ++ d :: v) = markAt? s := by
  unfold markAt?
  generalize marks = ms at h
  induction ms with
  | nil => rfl
  | cons m ms ih =>
      obtain ⟨hm, hms⟩ := List.forall_mem_cons.1 h
      have hfront : m <+: s ++ d :: v → m <+: s := by
        intro hp
        rcases List.prefix_or_prefix_of_prefix hp (List.prefix_append s _) with hs | ⟨n, rfl⟩
        · exact hs
        rw [List.prefix_append_right_inj] at hp
        cases n with
        | nil => simp
        | cons a n =>
            obtain ⟨rfl, -⟩ := List.cons_prefix_cons.1 hp
            exact absurd ⟨n, by simp⟩ hm
      have hsame : m.isPrefixOf (s ++ d :: v) = m.isPrefixOf s := by
        rw [Bool.eq_iff_iff, List.isPrefixOf_iff_prefix, List.isPrefixOf_iff_prefix]
        exact ⟨hfront, fun hp => hp.trans (List.prefix_append _ _)⟩
      rw [List.find?_cons, List.find?_cons, hsame, ih hms]

/-- A character that no mark goes on with. -/
theorem markAt?_cons_append {c d : Char} {r v : List Char} (h : ∀ m ∈ marks, d ∉ m.tail) :
    markAt? (c :: r ++ d :: v) = markAt? (c :: r) := by
  refine markAt?_append fun m hm hp => h m hm ?_
  obtain ⟨n, rfl⟩ := hp
  simp

theorem markAt?_front {d : Char} {v r : List Char} {c : Char} (hd : d ∈ seamChars) :
    markAt? (c :: r ++ d :: v) = markAt? (c :: r) :=
  markAt?_cons_append (seamChars_not_in_mark hd)

theorem isPrefix_of_markAt? {m s : List Char} (h : markAt? s = some m) : m <+: s := by
  unfold markAt? at h
  have hp := List.find?_some h
  exact List.isPrefixOf_iff_prefix.1 hp

theorem drop_mark_front {m r v : List Char} {c : Char} (h : markAt? (c :: r) = some m) :
    (r ++ v).drop (m.length - 1) = r.drop (m.length - 1) ++ v := by
  have hl := (isPrefix_of_markAt? h).length_le
  simp only [List.length_cons] at hl
  rw [List.drop_append_of_le_length (by omega)]

/-! ## Elements -/

theorem head?_front (hw : Border w) {r : List Char} {d : Char} (hd : d ∉ borderChars) (ha : a ≠ d) :
    (r ++ w).head? = some d ↔ (r ++ a :: u).head? = some d := by
  cases r with
  | nil => simp [hw.head_ne hd, ha]
  | cons => rfl

theorem regexAt?_append_none (hw : Seam w) {k : Bool} {c : Char} {r : List Char}
    (h : regexAt? k c (r ++ ';' :: u) = none) : regexAt? k c (r ++ w) = none := by
  unfold regexAt? at h ⊢
  split at h
  · rename_i hc
    rw [if_pos hc, afterRegex_append_none hw h rfl]
  · rename_i hc
    rw [if_neg hc]

theorem regexAt?_append_some (hw : Border w) {k : Bool} {c : Char} {r : List Char}
    (h : regexAt? k c (r ++ a :: u) = some (s ++ a :: u)) :
    regexAt? k c (r ++ w) = some (s ++ w) := by
  unfold regexAt? at h ⊢
  split at h
  · rename_i hc
    rw [if_pos hc, afterRegex_append_some hw h rfl]
  · cases h

theorem Seam.markAt? (hw : Seam w) {r : List Char} {c : Char} :
    markAt? (c :: r ++ w) = Source.markAt? (c :: r) := by
  cases hw with
  | intro hc _ _ => exact markAt?_front hc

theorem regexAt?_of_ne {k : Bool} {c : Char} (hc : c ≠ '/') (r : List Char) : regexAt? k c r = none :=
  if_neg fun h => hc h.1

theorem Element.plain_slash (r : List Char) : (Element.plain '/' r).1 = .token .mark := by
  unfold Element.plain
  rw [if_neg (by decide), if_neg (by decide)]
  split
  · rfl
  · rename_i hm
    exact absurd (List.find?_eq_none.1 hm ['/'] (by decide)) (by simp)

theorem Element.plain_front (hw : Border w) (ha : a ∈ seamChars) {c : Char} {r : List Char} {e : Element}
    (hmark : markAt? (c :: r ++ w) = markAt? (c :: r))
    (h : Element.plain c (r ++ a :: u) = (e, s ++ a :: u)) : Element.plain c (r ++ w) = (e, s ++ w) := by
  unfold Element.plain at h ⊢
  by_cases h1 : startsWord c
  · rw [if_pos h1] at h ⊢
    obtain ⟨rfl, ht⟩ := Prod.mk.inj h
    rw [dropWhile_front (fun _ => hw.dropWhile borderChars_not_continuesWord) ht]
  rw [if_neg h1] at h ⊢
  by_cases h2 : isDecimal c
  · rw [if_pos h2] at h ⊢
    obtain ⟨rfl, ht⟩ := Prod.mk.inj h
    rw [dropWhile_front (fun _ => hw.dropWhile borderChars_not_continuesNumber) ht]
  rw [if_neg h2] at h ⊢
  rw [← List.cons_append, markAt?_front ha] at h
  rw [← List.cons_append, hmark]
  cases hm : markAt? (c :: r) with
  | none =>
      rw [hm] at h
      obtain ⟨rfl, ht⟩ := Prod.mk.inj h
      rw [List.append_cancel_right ht]
  | some m =>
      rw [hm] at h
      obtain ⟨rfl, ht⟩ := Prod.mk.inj h
      simp only [drop_mark_front hm] at ht ⊢
      rw [List.append_cancel_right ht]

/-- An element that ends in front of a character that goes on with nothing is the same in front of a
border, if what the end of a line or a slash can change is the same there. -/
theorem Element.next_front (hw : Border w) (ha : a ∈ seamChars) {k : Bool} {c : Char} {r : List Char}
    {e : Element}
    (hline : c = '/' → r.head? = some '/' → afterLine (r ++ a :: u) = s ++ a :: u →
      afterLine (r ++ w) = s ++ w)
    (hstring : c ∈ ['\x27', '\x22'] → e = .token .string → afterString c (r ++ a :: u) = s ++ a :: u →
      afterString c (r ++ w) = s ++ w)
    (hregex : regexAt? k c (r ++ a :: u) = none → e = .token .mark → regexAt? k c (r ++ w) = none)
    (hmark : markAt? (c :: r ++ w) = markAt? (c :: r))
    (h : Element.next k c (r ++ a :: u) = (e, s ++ a :: u)) :
    Element.next k c (r ++ w) = (e, s ++ w) := by
  have hne : a ≠ '/' ∧ a ≠ '*' := by
    constructor <;> rintro rfl <;> exact absurd ha (by decide)
  have hslash := head?_front (u := u) hw (r := r) (d := '/') (by decide) hne.1
  have hstar := head?_front (u := u) hw (r := r) (d := '*') (by decide) hne.2
  -- the elements are tried in the same order in both texts
  unfold Element.next at h ⊢
  by_cases h1 : c = '\n'
  · rw [if_pos h1] at h ⊢
    obtain ⟨rfl, ht⟩ := Prod.mk.inj h
    rw [List.append_cancel_right ht]
  rw [if_neg h1] at h ⊢
  by_cases h2 : blanks.contains c
  · rw [if_pos h2] at h ⊢
    obtain ⟨rfl, ht⟩ := Prod.mk.inj h
    rw [List.append_cancel_right ht]
  rw [if_neg h2] at h ⊢
  by_cases h3 : c = '/' ∧ (r ++ a :: u).head? = some '/'
  · rw [if_pos h3] at h
    obtain ⟨rfl, ht⟩ := Prod.mk.inj h
    have hhead : r.head? = some '/' := by
      cases r with
      | nil => exact absurd (Option.some.inj h3.2) hne.1
      | cons => exact h3.2
    rw [if_pos ⟨h3.1, hslash.2 h3.2⟩, hline h3.1 hhead ht]
  rw [if_neg h3] at h
  rw [if_neg (fun hc => h3 ⟨hc.1, hslash.1 hc.2⟩)]
  by_cases h4 : c = '/' ∧ (r ++ a :: u).head? = some '*'
  · rw [if_pos h4] at h
    obtain ⟨rfl, ht⟩ := Prod.mk.inj h
    rw [if_pos ⟨h4.1, hstar.2 h4.2⟩]
    cases r with
    | nil => exact absurd (Option.some.inj h4.2) hne.2
    | cons b r => exact Prod.ext rfl (afterComment_append hw ht rfl)
  rw [if_neg h4] at h
  rw [if_neg (fun hc => h4 ⟨hc.1, hstar.1 hc.2⟩)]
  by_cases h5 : c = '\x27' ∨ c = '\x22'
  · rw [if_pos h5] at h ⊢
    obtain ⟨rfl, ht⟩ := Prod.mk.inj h
    rw [hstring (by simpa using h5) rfl ht]
  rw [if_neg h5] at h ⊢
  by_cases h6 : c = '\x60'
  · rw [if_pos h6] at h ⊢
    obtain ⟨rfl, ht⟩ := Prod.mk.inj h
    rw [afterTemplate_append hw ht rfl]
  rw [if_neg h6] at h ⊢
  cases hr : regexAt? k c (r ++ a :: u) with
  | some rest =>
      rw [hr] at h
      obtain ⟨rfl, rfl⟩ := Prod.mk.inj h
      rw [regexAt?_append_some hw hr]
  | none =>
      rw [hr] at h
      have hplain : Element.plain c (r ++ a :: u) = (e, s ++ a :: u) := h
      have hnone : regexAt? k c (r ++ w) = none := by
        by_cases hc : c = '/'
        · subst hc
          exact hregex hr (by rw [← Element.plain_slash, hplain])
        · exact regexAt?_of_ne hc _
      rw [hnone]
      exact Element.plain_front hw ha hmark hplain

/-- An element that ends in front of a semicolon, or before, is the same in front of a border that
goes on with no mark and closes no regular expression. -/
theorem Element.next_border (hw : Border w) {k : Bool} {c : Char} {r : List Char} {e : Element}
    (hregex : regexAt? k c (r ++ ';' :: u) = none → e = .token .mark → regexAt? k c (r ++ w) = none)
    (hmark : markAt? (c :: r ++ w) = markAt? (c :: r))
    (h : Element.next k c (r ++ ';' :: u) = (e, s ++ ';' :: u)) :
    Element.next k c (r ++ w) = (e, s ++ w) :=
  Element.next_front hw (by decide) (fun _ _ ht => afterLine_append ht)
    (fun _ _ ht => afterString_append ht rfl) hregex hmark h

/-- An element that ends in front of a semicolon, or before, is the same in front of a seam. -/
theorem Element.next_append (hw : Seam w) {k : Bool} {c : Char} {r : List Char} {e : Element}
    (h : Element.next k c (r ++ ';' :: u) = (e, s ++ ';' :: u)) :
    Element.next k c (r ++ w) = (e, s ++ w) :=
  Element.next_border hw.border (fun hr _ => regexAt?_append_none hw hr) hw.markAt? h

end TableRoster.Source
