import TableRoster.Proofs.Source.Seam

/-! # Reading a part of a text

A part of a text is read by itself if an element ends where the part ends. What it is read into is
then a prefix of the tokens of the whole. -/

namespace TableRoster.Source

/-- Read from `rd` on, the text `s` in front of `w` ends where an element ends. It makes the tokens
`ts`, and reading goes on from `rd'`. -/
inductive Reads (w : List Char) : Reader → List Char → List Token → Reader → Prop
  | nil {rd : Reader} : Reads w rd [] [] rd
  | cons {rd rd' : Reader} {c : Char} {r x s : List Char} {e : Element} {ts : List Token}
      (next : Element.next rd.regexAllowed c (r ++ w) = (e, s ++ w)) (split : c :: r = x ++ s)
      (rest : Reads w (rd.advance e x) s ts rd') :
      Reads w rd (c :: r) ((rd.token? e x).toList ++ ts) rd'

variable {rd rd' rd₂ : Reader} {s s₁ s₂ w u : List Char} {ts ts₁ ts₂ : List Token}

theorem upTo_of_append {s x rest : List Char} (h : s = x ++ rest) : upTo s rest = x := by
  subst h
  simp [upTo]

theorem Reads.lex_append (h : Reads w rd s ts rd') : lex rd (s ++ w) = ts ++ lex rd' w := by
  induction h with
  | nil => rfl
  | @cons rd rd' c r x s e ts next split _ ih =>
      have hx : upTo (c :: (r ++ w)) (s ++ w) = x :=
        upTo_of_append (by rw [← List.cons_append, split, List.append_assoc])
      rw [List.cons_append, lex]
      simp only [next, hx, ih, List.append_assoc]

/-- The tokens of a text that is read by itself. -/
theorem Reads.tokens {e : String} (h : Reads [] .start e.toList ts rd') : tokens e = ts := by
  have hlex := h.lex_append
  rwa [List.append_nil, lex, List.append_nil] at hlex

theorem Reads.append (h₁ : Reads (s₂ ++ w) rd s₁ ts₁ rd') (h₂ : Reads w rd' s₂ ts₂ rd₂) :
    Reads w rd (s₁ ++ s₂) (ts₁ ++ ts₂) rd₂ := by
  induction h₁ with
  | nil => exact h₂
  | @cons rd rd' c r x s e ts next split _ ih =>
      rw [List.append_assoc, List.cons_append]
      refine .cons (by rw [List.append_assoc, next, List.append_assoc]) ?_ (ih h₂)
      rw [← List.cons_append, split, List.append_assoc]

theorem Reads.offset (h : Reads w rd s ts rd') : rd'.offset = rd.offset + s.length := by
  induction h with
  | nil => rfl
  | cons _ split _ ih =>
      have hl := congrArg List.length split
      simp only [List.length_cons, List.length_append] at hl ⊢
      simp only [ih, Reader.advance]
      omega

theorem Reads.line_le (h : Reads w rd s ts rd') : rd.line ≤ rd'.line := by
  induction h with
  | nil => exact Nat.le_refl _
  | cons _ _ _ ih => exact Nat.le_trans (Nat.le_add_right _ _) ih

theorem Reads.last (h : Reads w rd s ts rd') : rd'.last = ts.getLast?.or rd.last := by
  induction h with
  | nil => rfl
  | @cons rd rd' c r x s e ts _ _ _ ih =>
      rw [ih, Reader.advance, List.getLast?_append, Option.or_assoc]
      cases rd.token? e x <;> rfl

/-- What was read in front of a semicolon is read alike in front of a seam. -/
theorem Reads.seam (h : Reads (';' :: u) rd s ts rd') (hw : Seam w) : Reads w rd s ts rd' := by
  induction h with
  | nil => exact .nil
  | cons next split _ ih => exact .cons (Element.next_append hw next) split ih

/-! ## Parts that end at a token -/

theorem Reader.token?_start {e : Element} {x : List Char} {t : Token}
    (h : rd.token? e x = some t) : t.start = rd.offset := by
  unfold Reader.token? Reader.breakToken? at h
  split at h
  · split at h <;> cases h; rfl
  · split at h
    · split at h <;> cases h; rfl
    · cases h
  · cases h; rfl
  · cases h

theorem mem_lex_start {t : Token} (h : t ∈ lex rd s) : rd.offset ≤ t.start := by
  fun_induction lex rd s with
  | case1 => simp at h
  | case2 rd c r found text ih =>
      rw [List.mem_append, Option.mem_toList] at h
      rcases h with h | h
      · exact Nat.le_of_eq (Reader.token?_start h).symm
      · have := ih h
        simp only [Reader.advance] at this
        omega

/-- A text is read by itself in front of a token. -/
theorem reads_of_mem {rd : Reader} {s : List Char} {t : Token} (h : t ∈ lex rd (s ++ w))
    (ht : t.start = rd.offset + s.length) : ∃ ts rd', Reads w rd s ts rd' := by
  match s with
  | [] => exact ⟨[], rd, .nil⟩
  | c :: r =>
      rw [List.cons_append, lex, List.mem_append, Option.mem_toList] at h
      rcases h with h | h
      · have := Reader.token?_start h
        simp only [List.length_cons] at ht
        omega
      · have hs := Element.next_suffix rd.regexAllowed c (r ++ w)
        have hx := upTo_append (hs.trans (List.suffix_cons c _))
        have hstart := mem_lex_start h
        generalize hn : Element.next rd.regexAllowed c (r ++ w) = n at h hs hx hstart
        generalize upTo (c :: (r ++ w)) n.2 = x at h hx hstart
        obtain ⟨m, hm, hrest⟩ := front_of_length_le (s := c :: r) hx.symm
          (by simp only [Reader.advance, ht] at hstart; simpa using hstart)
        have hlt : m.length < (c :: r).length := by
          have := hs.length_le
          simp only [hrest, List.length_append, List.length_cons] at this ⊢
          omega
        rw [hrest] at h
        obtain ⟨ts, rd', hr⟩ := reads_of_mem h (by
          rw [ht, hm, Reader.advance, List.length_append, Nat.add_assoc])
        exact ⟨_, _, .cons (by rw [hn, ← hrest]) hm hr⟩
termination_by s.length
decreasing_by exact hlt

end TableRoster.Source
