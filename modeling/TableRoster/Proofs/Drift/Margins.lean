import TableRoster.Proofs.Collection
import TableRoster.Proofs.Drift.Header
import TableRoster.Proofs.Layout

/-! # Blanks around an aggregate module, and other line ends

An editor may leave blanks before and behind a text, and a checkout may write its line ends in another
way. Neither changes what is compared of a generated text, and so no such text counts as another one. -/

namespace TableRoster

open Text

namespace Text

variable {a b e m r s : List Char}

/-- A text with each of its line feeds written as `e`. -/
def withEnds (e s : List Char) : List Char :=
  s.flatMap fun c => if c = '\n' then e else [c]

/-- The ways in which the end of a line is written. -/
def lineEnds : List (List Char) := [['\n'], ['\r', '\n'], ['\r']]

theorem withEnds_append (e x y : List Char) : withEnds e (x ++ y) = withEnds e x ++ withEnds e y :=
  List.flatMap_append

theorem withEnds_break (e r : List Char) : withEnds e ('\n' :: r) = e ++ withEnds e r := by
  simp [withEnds]

theorem withEnds_of_ne (e : List Char) {c : Char} (h : c ≠ '\n') (r : List Char) :
    withEnds e (c :: r) = c :: withEnds e r := by
  simp [withEnds, h]

theorem mem_withEnds {c : Char} (h : c ∈ withEnds e s) : c ∈ e ∨ c ∈ s := by
  obtain ⟨d, hd, hc⟩ := List.mem_flatMap.1 h
  split at hc
  · exact .inl hc
  · exact .inr (List.mem_singleton.1 hc ▸ hd)

theorem unifyLineEnds_cons {c : Char} (h : c ≠ '\r') (r : List Char) :
    unifyLineEnds (c :: r) = c :: unifyLineEnds r :=
  unifyLineEnds.eq_4 c r (fun _ hc => absurd hc h) fun hc => absurd hc h

theorem unifyLineEnds_cr (h : r.head? ≠ some '\n') :
    unifyLineEnds ('\r' :: r) = '\n' :: unifyLineEnds r := by
  refine unifyLineEnds.eq_3 r fun r' hr => h ?_
  rw [hr, List.head?_cons]

theorem mem_unifyLineEnds {c : Char} (h : c ∈ unifyLineEnds s) : c = '\n' ∨ c ∈ s := by
  fun_induction unifyLineEnds s <;> grind

/-- What stands behind a character that is no line feed does not change how the text before it is
read. -/
theorem unifyLineEnds_append_cons (x : List Char) {c : Char} (h : c ≠ '\n') (y : List Char) :
    unifyLineEnds (x ++ c :: y) = unifyLineEnds x ++ unifyLineEnds (c :: y) := by
  fun_induction unifyLineEnds x with
  | case1 => rfl
  | case2 x ih => exact congrArg ('\n' :: ·) ih
  | case3 x hx ih =>
    have hhead : (x ++ c :: y).head? ≠ some '\n' := by
      cases x with
      | nil => simpa using h
      | cons d x => simpa using fun hd => hx x (by rw [hd])
    rw [List.cons_append, unifyLineEnds_cr hhead, ih, List.cons_append]
  | case4 d x hd hx ih =>
    have hcr : d ≠ '\r' := fun hd' => hx hd'
    rw [List.cons_append, unifyLineEnds_cons hcr, ih, List.cons_append]

theorem head?_withEnds_cr (s : List Char) : (withEnds ['\r'] s).head? ≠ some '\n' := by
  cases s with
  | nil => simp [withEnds]
  | cons c s =>
    by_cases hc : c = '\n'
    · subst hc
      simp [withEnds_break]
    · simpa [withEnds_of_ne _ hc] using hc

/-- Whichever way line ends are written, they are read as line feeds. -/
theorem unifyLineEnds_withEnds (he : e ∈ lineEnds) (hm : '\r' ∉ m) (r : List Char) :
    unifyLineEnds (withEnds e (m ++ r)) = m ++ unifyLineEnds (withEnds e r) := by
  induction m with
  | nil => rfl
  | cons c m ih =>
    simp only [List.mem_cons, not_or] at hm
    rw [List.cons_append, List.cons_append, ← ih hm.2]
    by_cases hc : c = '\n'
    · subst hc
      rw [withEnds_break]
      simp only [lineEnds, List.mem_cons, List.not_mem_nil, or_false] at he
      obtain rfl | rfl | rfl := he
      · rfl
      · rfl
      · exact unifyLineEnds_cr (head?_withEnds_cr _)
    · rw [withEnds_of_ne e hc, unifyLineEnds_cons (Ne.symm hm.1)]

/-- Blanks are read as blanks, whichever way line ends are written. -/
theorem blank_unifyLineEnds_withEnds (he : e ∈ lineEnds) (hs : ∀ c ∈ s, isBlank c = true) :
    ∀ c ∈ unifyLineEnds (withEnds e s), isBlank c = true := by
  have hends : ∀ e ∈ lineEnds, ∀ c ∈ e, isBlank c = true := by simp [lineEnds, isBlank]
  intro c hc
  rcases mem_unifyLineEnds hc with rfl | hc
  · rfl
  · exact (mem_withEnds hc).elim (hends e he c) (hs c)

theorem trim_between (ha : ∀ c ∈ a, isBlank c = true) (hb : ∀ c ∈ b, isBlank c = true) :
    trim (a ++ s ++ b) = trim s := by
  have hb' : ∀ c ∈ b.reverse, isBlank c = true := fun c hc => hb c (List.mem_reverse.1 hc)
  rw [trim, trimBy, List.append_assoc, List.dropWhile_append_of_pos ha, List.dropWhile_append]
  split
  · rename_i hs
    rw [trim, trimBy, List.isEmpty_iff.1 hs, List.dropWhile_eq_nil_iff.2 hb]
  · rw [List.reverse_append, List.dropWhile_append_of_pos hb', trim, trimBy]

/-- Blanks before a text are lines of blanks, and the start of the text's first line. -/
theorem splitAt_blanks_append (ha : ∀ c ∈ a, isBlank c = true) (s : List Char) :
    ∃ as x l ls, splitAt '\n' s = l :: ls ∧ splitAt '\n' (a ++ s) = as ++ (x ++ l) :: ls
      ∧ (∀ y ∈ as, ∀ c ∈ y, isBlank c = true) ∧ ∀ c ∈ x, isBlank c = true := by
  induction a with
  | nil =>
    obtain ⟨l, ls, hl⟩ := List.exists_cons_of_ne_nil (splitAt_ne_nil '\n' s)
    exact ⟨[], [], l, ls, hl, hl, nofun, nofun⟩
  | cons c a ih =>
    obtain ⟨hc, ha⟩ := List.forall_mem_cons.1 ha
    obtain ⟨as, x, l, ls, hl, hsplit, has, hx⟩ := ih ha
    rw [List.cons_append, splitAt, hsplit]
    split
    · exact ⟨[] :: as, x, l, ls, hl, rfl, List.forall_mem_cons.2 ⟨nofun, has⟩, hx⟩
    · cases as with
      | nil => exact ⟨[], c :: x, l, ls, hl, rfl, nofun, List.forall_mem_cons.2 ⟨hc, hx⟩⟩
      | cons y as =>
        obtain ⟨hy, has⟩ := List.forall_mem_cons.1 has
        exact ⟨(c :: y) :: as, x, l, ls, hl, rfl,
          List.forall_mem_cons.2 ⟨List.forall_mem_cons.2 ⟨hc, hy⟩, has⟩, hx⟩

end Text

namespace Drift

variable {e : List Char} {front back body : String}

theorem isStampLine_blank {l : List Char} (h : ∀ c ∈ l, isBlank c = true) : isStampLine l = false := by
  rw [isStampLine]
  split
  · rename_i r hdrop
    have hstar : '*' ∈ l := (List.dropWhile_suffix isIndent).subset (by simp [hdrop])
    exact absurd (h _ hstar) (by decide)
  · rfl

/-- No line before the one with the time is taken for it, if there are blanks before the text. -/
theorem any_isStampLine_opening {a : List Char} (ha : ∀ c ∈ a, isBlank c = true) :
    (splitAt '\n' (a ++ Layout.opening.toList)).any isStampLine = false := by
  obtain ⟨⟨o, ho, -⟩, -, hlines⟩ := opening_toList
  obtain ⟨as, x, l, ls, hl, hsplit, has, hx⟩ := splitAt_blanks_append ha Layout.opening.toList
  have hfirst : ∃ r, l = '/' :: r := by
    rw [ho, splitAt, if_neg (by decide)] at hl
    split at hl <;> exact ⟨_, (List.cons.inj hl).1.symm⟩
  obtain ⟨r, rfl⟩ := hfirst
  rw [hl, List.any_cons, Bool.or_eq_false_iff] at hlines
  simp only [hsplit, List.any_append, List.any_cons, Bool.or_eq_false_iff, List.any_eq_false]
  exact ⟨fun y hy => by simp [isStampLine_blank (has y hy)], isStampLine_comment hx,
    List.any_eq_false.1 hlines.2⟩

/-- What is compared of a generated text is the same with blanks around it, with other line ends, and at
another time. -/
theorem normal_withEnds (hbody : '\r' ∉ body.toList) (hfront : ∀ c ∈ front.toList, isBlank c = true)
    (hback : ∀ c ∈ back.toList, isBlank c = true) (he : e ∈ lineEnds) (t t' : Timestamp) :
    normal (String.ofList (withEnds e (front ++ (Layout.header t ++ "\n" ++ body) ++ back).toList))
      = normal (Layout.header t' ++ "\n" ++ body) := by
  have hend : '\r' ∉ (" */\n\n" ++ body).toList := by
    simpa using hbody
  obtain ⟨⟨o, ho, -⟩, hopening, -⟩ := opening_toList
  obtain ⟨hn, hr⟩ := lineEnd_not_mem_stampLine t
  have hcr : '\r' ∉ (Layout.header t ++ "\n" ++ body).toList := by
    rw [header_toList]
    simpa [hopening, hr] using hbody
  have hslash : ∃ r, (Layout.header t ++ "\n" ++ body).toList = '/' :: r := by
    rw [header_toList, ho]
    exact ⟨_, rfl⟩
  -- the text in between is read as it was generated, and what is around it as blanks
  have hread : ∃ a b, unifyLineEnds (withEnds e
      (front ++ (Layout.header t ++ "\n" ++ body) ++ back).toList)
        = a ++ (Layout.header t ++ "\n" ++ body).toList ++ b
      ∧ (∀ c ∈ a, isBlank c = true) ∧ ∀ c ∈ b, isBlank c = true := by
    refine ⟨_, _, ?_, blank_unifyLineEnds_withEnds he hfront, blank_unifyLineEnds_withEnds he hback⟩
    obtain ⟨r, hr⟩ := hslash
    rw [String.toList_append, String.toList_append, List.append_assoc, withEnds_append, hr,
      List.cons_append, withEnds_of_ne e (by decide), unifyLineEnds_append_cons _ (by decide),
      ← withEnds_of_ne e (by decide), ← List.cons_append, ← hr, unifyLineEnds_withEnds he hcr,
      List.append_assoc]
  obtain ⟨a, b, hread, ha, hb⟩ := hread
  rw [normal_eq t', normal, String.toList_ofList, hread, header_toList, List.append_assoc,
    List.append_assoc, List.cons_append, List.append_assoc, List.cons_append, ← List.append_assoc,
    dropStamp_append (any_isStampLine_opening ha) hn (isStampLine_stampLine t)]
  have hunified : unifyLineEnds (" */\n\n" ++ body).toList = (" */\n\n" ++ body).toList := by
    simpa [unifyLineEnds] using unifyLineEnds_append (r := []) hend
  rw [hunified, List.append_assoc, ← List.cons_append, ← List.append_assoc Layout.opening.toList,
    ← List.append_assoc, trim_between ha hb]

end Drift

namespace Aggregate

variable {s : Settings} {ts : List Table} {time : Timestamp} {a : Aggregate} {front back : String}
  {e : List Char}

/-- A generated text with blanks around it, whichever way its line ends are written, is compared as equal
to the text that is generated at another time. -/
theorem normal_persisted (hs : s.Valid)
    (hts : ∀ t ∈ ts, '\r' ∉ t.symbol.toList ∧ '\r' ∉ t.specifier.toList)
    (ha : (emit s time ts).result = .ok a) (hfront : ∀ c ∈ front.toList, isBlank c = true)
    (hback : ∀ c ∈ back.toList, isBlank c = true) (he : e ∈ lineEnds) (time' : Timestamp) :
    ∃ a', (emit s time' ts).result = .ok a'
      ∧ Drift.normal (String.ofList (withEnds e (front ++ a.text ++ back).toList))
        = Drift.normal a'.text := by
  refine ⟨{ a with time := time' }, by rw [Collection.emit_result time, ha]; rfl, ?_⟩
  obtain ⟨-, rfl⟩ := Layout.emitted ha
  exact Drift.normal_withEnds (Layout.cr_not_mem_body hs hts) hfront hback he time time'

/-- A checkout may end lines with a carriage return and a line feed. -/
theorem normal_persisted_crlf : ∃ a', (emit (Layout.folderSettings "a") ⟨2025, 1, 2, 3, 4, 5, 0, none⟩
      (Layout.folderTables "a")).result = .ok a'
    ∧ Drift.normal (String.ofList (withEnds ['\r', '\n'] ("\n\t"
        ++ (Layout.folderAggregate "a" ⟨2024, 1, 2, 3, 4, 5, 0, some 0⟩).text ++ " \n").toList))
      = Drift.normal a'.text := by
  have hemit : (emit (Layout.folderSettings "a") ⟨2024, 1, 2, 3, 4, 5, 0, some 0⟩
      (Layout.folderTables "a")).result
    = .ok (Layout.folderAggregate "a" ⟨2024, 1, 2, 3, 4, 5, 0, some 0⟩) := rfl
  exact normal_persisted (Layout.valid_folderSettings "a") (by decide) hemit (by simp [isBlank])
    (by simp [isBlank]) (by simp [lineEnds]) _

end Aggregate

end TableRoster
