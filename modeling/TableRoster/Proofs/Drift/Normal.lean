import Mathlib.Data.List.Basic
import TableRoster.Drift.Normal

/-! # What is compared of the text of an aggregate module

The first line with a time is the one of the header, whatever the body holds, so what is compared
does not depend on the time. Line ends that are made alike once stay as they are. -/

namespace TableRoster

/-! ## Times -/

namespace Timestamp

theorem isDigit_of_mem_padded {width n : Nat} {c : Char} (h : c ∈ (padded width n).toList) :
    c.isDigit = true := by
  simp only [padded, String.toList_append, String.toList_ofList, List.mem_append,
    List.mem_replicate, show toString n = n.repr from rfl, Nat.toList_repr] at h
  obtain ⟨-, rfl⟩ | h := h
  · rfl
  · exact Nat.isDigit_of_mem_toDigits (by decide) (by decide) h

/-- A time is written in digits and few other characters. -/
theorem not_mem_toMilliseconds (t : Timestamp) {c : Char} (hd : c.isDigit = false)
    (hc : c ∉ ['-', 'T', ':', '.', '+']) : c ∉ t.toMilliseconds.toList := by
  have hpad : ∀ {width n : Nat}, c ∉ (padded width n).toList := by
    intro width n h
    simp [isDigit_of_mem_padded h] at hd
  simp only [List.mem_cons, List.not_mem_nil, or_false, not_or] at hc
  obtain ⟨h₁, h₂, h₃, h₄, h₅⟩ := hc
  have hoffset : c ∉ t.offsetText.toList := by
    unfold offsetText
    split
    · simp
    · rename_i o _
      have hsign : c ∉ (if o < 0 then "-" else "+").toList := by
        split <;> simp [h₁, h₅]
      have hrest : c ∉ (if o.natAbs % 60 = 0 then "" else ":" ++ padded 2 (o.natAbs % 60)).toList := by
        split <;> simp [hpad, h₃]
      simp [hpad, h₃, hsign, hrest]
  simp [toMilliseconds, dateText, clockText, hpad, hoffset, h₁, h₂, h₃, h₄]

/-- A time is written on one line. -/
theorem lineEnd_not_mem_toMilliseconds (t : Timestamp) :
    '\n' ∉ t.toMilliseconds.toList ∧ '\r' ∉ t.toMilliseconds.toList :=
  ⟨t.not_mem_toMilliseconds (by decide) (by decide), t.not_mem_toMilliseconds (by decide) (by decide)⟩

end Timestamp

/-! ## Line ends -/

namespace Text

variable {s r : List Char}

theorem unifyLineEnds_append (hs : '\r' ∉ s) : unifyLineEnds (s ++ r) = s ++ unifyLineEnds r := by
  induction s with
  | nil => rfl
  | cons c s ih =>
    simp only [List.mem_cons, not_or] at hs
    rw [List.cons_append, List.cons_append, ← ih hs.2]
    have hc : c ≠ '\r' := Ne.symm hs.1
    exact unifyLineEnds.eq_4 c (s ++ r) (fun r' h => absurd h hc) fun h => absurd h hc

theorem cr_not_mem_unifyLineEnds (s : List Char) : '\r' ∉ unifyLineEnds s := by
  fun_induction unifyLineEnds s <;> simp_all [eq_comm]

theorem unifyLineEnds_idem (s : List Char) : unifyLineEnds (unifyLineEnds s) = unifyLineEnds s := by
  simpa [unifyLineEnds] using unifyLineEnds_append (r := []) (cr_not_mem_unifyLineEnds s)

theorem splitAt_ne_nil (c : Char) (s : List Char) : splitAt c s ≠ [] := by
  cases s with
  | nil => simp [splitAt]
  | cons x s =>
    unfold splitAt
    split
    · simp
    · split <;> simp

theorem splitAt_append_cons (c : Char) (s r : List Char) :
    splitAt c (s ++ c :: r) = splitAt c s ++ splitAt c r := by
  induction s with
  | nil => simp [splitAt]
  | cons x s ih =>
    simp only [List.cons_append, splitAt, ih]
    split
    · rfl
    · cases h : splitAt c s with
      | nil => exact absurd h (splitAt_ne_nil c s)
      | cons l ls => simp

theorem splitAt_of_not_mem {c : Char} (h : c ∉ s) : splitAt c s = [s] := by
  induction s with
  | nil => rfl
  | cons x s ih =>
    simp only [List.mem_cons, not_or] at h
    simp [splitAt, ih h.2, Ne.symm h.1]

theorem intercalate_splitAt (c : Char) (s : List Char) : [c].intercalate (splitAt c s) = s := by
  induction s with
  | nil => rfl
  | cons x s ih =>
    obtain ⟨l, ls, hl⟩ := List.exists_cons_of_ne_nil (splitAt_ne_nil c s)
    rw [hl] at ih
    rw [splitAt, hl]
    split
    · subst_vars
      rfl
    · subst ih
      cases ls <;> simp

end Text

namespace Drift

open Text

/-! ## The line with the time -/

theorem dropStamp_append {s line r : List Char} (hs : (splitAt '\n' s).any isStampLine = false)
    (hn : '\n' ∉ line) (hline : isStampLine line = true) :
    dropStamp (s ++ '\n' :: (line ++ '\n' :: r)) = s ++ '\n' :: r := by
  rw [dropStamp, splitAt_append_cons, splitAt_append_cons, splitAt_of_not_mem hn,
    List.eraseP_append_right _ (by simpa using hs), List.singleton_append, List.eraseP_cons_of_pos hline,
    ← splitAt_append_cons, intercalate_splitAt]

theorem header_toList (t : Timestamp) (body : String) :
    (Layout.header t ++ "\n" ++ body).toList = Layout.opening.toList
      ++ '\n' :: ((Layout.stampLine t).toList ++ '\n' :: (" */\n\n" ++ body).toList) := by
  have hbreak : "\n".toList = ['\n'] := by decide
  have hend : "\n */\n".toList = '\n' :: " */\n".toList := by decide
  have hclosing : " */\n\n".toList = " */\n".toList ++ ['\n'] := by decide
  simp only [Layout.header, String.toList_append, hbreak, hend, hclosing, List.append_assoc,
    List.cons_append, List.nil_append]

theorem isStampLine_stampLine (t : Timestamp) : isStampLine (Layout.stampLine t).toList = true := by
  simp [Layout.stampLine, isStampLine, isIndent, Layout.stampLabel]

theorem lineEnd_not_mem_stampLine (t : Timestamp) :
    '\n' ∉ (Layout.stampLine t).toList ∧ '\r' ∉ (Layout.stampLine t).toList := by
  obtain ⟨hn, hr⟩ := t.lineEnd_not_mem_toMilliseconds
  simp [Layout.stampLine, Layout.stampLabel, hn, hr]

theorem slash_not_mem_stampLine (t : Timestamp) : '/' ∉ (Layout.stampLine t).toList := by
  have htime : '/' ∉ t.toMilliseconds.toList := t.not_mem_toMilliseconds (by decide) (by decide)
  simpa [Layout.stampLine, Layout.stampLabel] using htime

/-- The opening leaves a comment open, on lines of which none has a time. -/
theorem opening_toList : (∃ o, Layout.opening.toList = '/' :: '*' :: o ∧ '/' ∉ o)
    ∧ '\r' ∉ Layout.opening.toList ∧ (splitAt '\n' Layout.opening.toList).any isStampLine = false := by
  unfold Layout.opening
  rw [String.toList_append, String.toList_ofList, String.toList_ofList]
  exact ⟨⟨_, rfl, by decide⟩, by decide, by decide⟩

/-- What is compared of a text with a line with a time behind its opening is all but that line. -/
theorem normal_line {text : String} {line r : List Char} (hn : '\n' ∉ line) (hr : '\r' ∉ line)
    (hline : isStampLine line = true)
    (htext : text.toList = Layout.opening.toList ++ '\n' :: (line ++ '\n' :: r)) :
    normal text = String.ofList (trim (Layout.opening.toList ++ '\n' :: unifyLineEnds r)) := by
  obtain ⟨-, hopening, hlines⟩ := opening_toList
  have hbreak : ∀ r, unifyLineEnds ('\n' :: r) = '\n' :: unifyLineEnds r := fun _ => rfl
  rw [normal, htext, unifyLineEnds_append hopening, hbreak, unifyLineEnds_append hr, hbreak,
    dropStamp_append hlines hn hline]

/-- What is compared of an aggregate module is all but the line with the time. -/
theorem normal_eq (t : Timestamp) (body : String) : normal (Layout.header t ++ "\n" ++ body)
    = String.ofList
      (trim (Layout.opening.toList ++ '\n' :: unifyLineEnds (" */\n\n" ++ body).toList)) :=
  normal_line (lineEnd_not_mem_stampLine t).1 (lineEnd_not_mem_stampLine t).2 (isStampLine_stampLine t)
    (header_toList t body)

/-- What is compared of an aggregate module does not depend on its time. -/
theorem normal_header (t t' : Timestamp) (body : String) :
    normal (Layout.header t ++ "\n" ++ body) = normal (Layout.header t' ++ "\n" ++ body) := by
  rw [normal_eq t, normal_eq t']

/-- What is compared of a text is the same for the text as it is read. -/
theorem normal_unifyLineEnds (s : String) :
    normal (String.ofList (unifyLineEnds s.toList)) = normal s := by
  rw [normal, normal, String.toList_ofList, unifyLineEnds_idem]

end Drift

end TableRoster
