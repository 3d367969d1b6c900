import TableRoster.Proofs.Layout
import TableRoster.Proofs.Source.Margins

/-! # The header of an aggregate module

Texts that are compared as equal may differ in one line each, wherever it stands. Where that line is
part of the comment that the text starts with, the texts declare the same. -/

namespace TableRoster

open Source Text

namespace Text

variable {s x y r : List Char}

/-- A text is what is left of it between blanks. -/
theorem exists_blanks_trim (s : List Char) : ∃ front back, s = front ++ trim s ++ back
    ∧ (∀ c ∈ front, isBlank c = true) ∧ ∀ c ∈ back, isBlank c = true := by
  have hwhile : ∀ {s : List Char}, ∀ c ∈ s.takeWhile isBlank, isBlank c = true := fun c hc =>
    List.mem_takeWhile_imp hc
  refine ⟨s.takeWhile isBlank, ((s.dropWhile isBlank).reverse.takeWhile isBlank).reverse, ?_, hwhile,
    fun c hc => hwhile c (List.mem_reverse.1 hc)⟩
  rw [trim, trimBy, List.append_assoc, ← List.reverse_append, List.takeWhile_append_dropWhile,
    List.reverse_reverse, List.takeWhile_append_dropWhile]

/-- Two characters that stand beside one another in neither text do not come to do so around
another one. -/
theorem not_infix_append_cons {a b d : Char} (hx : ¬ [a, b] <:+: x) (hy : ¬ [a, b] <:+: y)
    (ha : a ≠ d) (hb : b ≠ d) : ¬ [a, b] <:+: x ++ d :: y := by
  induction x with
  | nil =>
    rw [List.nil_append, List.infix_cons_iff, not_or]
    exact ⟨fun h => ha (List.cons_prefix_cons.1 h).1, hy⟩
  | cons c x ih =>
    rw [List.cons_append, List.infix_cons_iff, not_or]
    refine ⟨fun h => ?_, ih fun h => hx (h.trans (List.suffix_cons c x).isInfix)⟩
    obtain ⟨rfl, hrest⟩ := List.cons_prefix_cons.1 h
    cases x with
    | nil => exact hb (List.cons_prefix_cons.1 hrest).1
    | cons e x =>
      obtain ⟨rfl, -⟩ := List.cons_prefix_cons.1 hrest
      exact hx ⟨[], x, rfl⟩

end Text

namespace Drift

variable {s blank front c l m r : List Char} {as bs : List (List Char)} {t : Timestamp} {text body : String}

/-- A text that is blank up to a comment, which it leaves open. -/
def OpensComment (s : List Char) : Prop :=
  ∃ blank c, s = blank ++ '/' :: '*' :: c ∧ (∀ x ∈ blank, isBlank x = true) ∧ ¬ ['*', '/'] <:+: c

/-- The first line with a time, if there is one, belongs to the comment that the text starts with, and
does not close it. -/
def StampInHeader (s : List Char) : Prop :=
  ∀ as l bs, splitAt '\n' s = as ++ l :: bs → (∀ x ∈ as, isStampLine x = false) →
    isStampLine l = true → OpensComment (['\n'].intercalate (as ++ [l]))

/-! ## Around the line with the time -/

/-- Lines with their line breaks. -/
def broken (as : List (List Char)) : List Char :=
  as.flatMap (· ++ ['\n'])

theorem intercalate_append_cons (as : List (List Char)) (l : List Char) (bs : List (List Char)) :
    ['\n'].intercalate (as ++ l :: bs) = broken as ++ ['\n'].intercalate (l :: bs) := by
  induction as with
  | nil => rfl
  | cons a as ih =>
    have hne : as ++ l :: bs ≠ [] := by simp
    rw [List.cons_append, List.intercalate_cons_of_ne_nil hne, ih]
    simp [broken]

theorem broken_eq (h : broken as ≠ []) : broken as = ['\n'].intercalate as ++ ['\n'] := by
  rcases List.eq_nil_or_concat as with rfl | ⟨as, l, rfl⟩
  · exact absurd rfl h
  · rw [List.concat_eq_append, intercalate_append_cons]
    simp [broken]

/-- What a row of broken lines ends with ends with a line break. -/
theorem getLast?_of_broken (h : broken as = l ++ m) (hm : m ≠ []) : m.getLast? = some '\n' := by
  have hall : broken as = _ := broken_eq (by simp [h, hm])
  have hlast := congrArg List.getLast? (h.symm.trans hall)
  rwa [List.getLast?_append_of_ne_nil l hm, List.getLast?_concat] at hlast

theorem slash_not_mem_blank (h : ∀ x ∈ blank, isBlank x = true) : '/' ∉ blank := fun hmem =>
  absurd (h _ hmem) (by decide)

/-- No line with a time starts with a comment. -/
theorem isStampLine_comment (h : ∀ x ∈ blank, isBlank x = true) :
    isStampLine (blank ++ '/' :: r) = false := by
  have hstar : ∀ {x : List Char}, (∀ c ∈ x, isBlank c = true) →
      (x ++ '/' :: r).head? ≠ some '*' := by
    intro x hx
    cases x with
    | nil => simp
    | cons c x =>
      have hc := hx c List.mem_cons_self
      rintro h
      cases h
      exact absurd hc (by decide)
  have hdrop : (blank ++ '/' :: r).dropWhile isIndent = blank.dropWhile isIndent ++ '/' :: r := by
    rw [List.dropWhile_append]
    split
    · rename_i hnil
      rw [List.isEmpty_iff.1 hnil]
      rfl
    · rfl
  have hhead := hstar fun c hc => h c ((List.dropWhile_suffix isIndent).subset hc)
  rw [isStampLine, hdrop]
  split
  · rename_i heq
    rw [heq] at hhead
    exact absurd rfl hhead
  · rfl

/-- What is left of a text whose line with the time is dropped starts with the comment that it stands
in, if that is so. -/
theorem headed_of_stamp (hs : OpensComment (broken as ++ l)) (hl : isStampLine l = true) :
    ∃ blank c, broken as = blank ++ '/' :: '*' :: c ∧ (∀ x ∈ blank, isBlank x = true)
      ∧ ¬ ['*', '/'] <:+: c ++ l := by
  obtain ⟨blank, c, h, hblank, hc⟩ := hs
  rcases List.append_eq_append_iff.1 h with ⟨m, rfl, rfl⟩ | ⟨m, hm, h⟩
  · -- the comment would open in the line with the time
    rw [isStampLine_comment fun x hx => hblank x (List.mem_append_right _ hx)] at hl
    cases hl
  · match m, h with
    | [], h =>
      obtain rfl : '/' :: '*' :: c = l := h
      rw [← List.nil_append ('/' :: _), isStampLine_comment (by simp)] at hl
      cases hl
    | [_], h =>
      obtain ⟨rfl, -⟩ := List.cons.inj h
      have hbreak := getLast?_of_broken hm (by simp)
      simp at hbreak
    | _ :: _ :: c', h =>
      simp only [List.cons_append, List.cons.injEq] at h
      obtain ⟨rfl, rfl, rfl⟩ := h
      exact ⟨blank, c', hm, hblank, hc⟩

/-- A comment that is not closed closes behind what is read of it. -/
theorem comment_goes_on {x y : List Char} (hx : ¬ ['*', '/'] <:+: x) (hlast : x.getLast? ≠ some '*')
    (h : x ++ y = c ++ '*' :: '/' :: r) : ∃ m, c = x ++ m ∧ y = m ++ '*' :: '/' :: r := by
  rcases List.append_eq_append_iff.1 h with ⟨m, hm, hy⟩ | ⟨m, rfl, hy⟩
  · exact ⟨m, hm, hy⟩
  · match m, hy with
    | [], hy => exact ⟨[], by simp, hy.symm⟩
    | [_], hy =>
      obtain ⟨rfl, -⟩ := List.cons.inj hy
      simp at hlast
    | _ :: _ :: m, hy =>
      simp only [List.cons_append, List.cons.injEq] at hy
      obtain ⟨rfl, rfl, -⟩ := hy
      exact absurd ⟨c, m, by simp⟩ hx

/-- Lines that hold a whole comment at their start close the comment that they start with. -/
theorem closed_of_intercalate (has : broken as = blank ++ '/' :: '*' :: c)
    (hblank : ∀ x ∈ blank, isBlank x = true)
    (h : ['\n'].intercalate as = front ++ '/' :: '*' :: (m ++ '*' :: '/' :: r))
    (hfront : ∀ x ∈ front, isBlank x = true) : ['*', '/'] <:+: c := by
  have hne : broken as ≠ [] := by simp [has]
  have hend := broken_eq hne
  rw [h, has, List.append_assoc, List.cons_append] at hend
  obtain ⟨-, hrest⟩ :=
    append_cons_inj_of_not_mem (slash_not_mem_blank hblank) (slash_not_mem_blank hfront) hend
  exact ⟨m, r ++ ['\n'], by simp [(List.cons.inj hrest).2]⟩

/-- A line that is put back into a comment, and does not close it, leaves a comment that ends where it
ended. -/
theorem headed_of_broken (has : broken as = blank ++ '/' :: '*' :: c)
    (hblank : ∀ x ∈ blank, isBlank x = true) (hc : ¬ ['*', '/'] <:+: c ++ l)
    (h : broken as ++ s = front ++ '/' :: '*' :: (m ++ '*' :: '/' :: r))
    (hfront : ∀ x ∈ front, isBlank x = true) (hm : ¬ ['*', '/'] <:+: m) :
    ∃ c', broken as ++ (l ++ '\n' :: s) = front ++ '/' :: '*' :: (c' ++ '*' :: '/' :: r)
      ∧ ¬ ['*', '/'] <:+: c' := by
  rw [has, List.append_assoc, List.cons_append] at h
  obtain ⟨rfl, hrest⟩ :=
    append_cons_inj_of_not_mem (slash_not_mem_blank hblank) (slash_not_mem_blank hfront) h
  have hlast : c.getLast? ≠ some '*' := by
    rintro hstar
    have hbreak := getLast?_of_broken has (by simp)
    simp [List.getLast?_cons, hstar] at hbreak
  have hopen : ¬ ['*', '/'] <:+: c := fun hclosed => hc (hclosed.trans (List.prefix_append _ _).isInfix)
  obtain ⟨n, rfl, hn⟩ := comment_goes_on hopen hlast (List.cons.inj hrest).2
  have hbehind : ¬ ['*', '/'] <:+: n := fun hclosed =>
    hm (hclosed.trans (List.suffix_append _ _).isInfix)
  exact ⟨c ++ l ++ '\n' :: n, by simp [has, hn],
    not_infix_append_cons hc hbehind (by decide) (by decide)⟩

/-- A text that is left with a comment at its start when its line with the time is dropped has that
comment at its start already, if the line stands in it. -/
theorem headed_of_dropStamp (hs : StampInHeader s)
    (h : dropStamp s = front ++ '/' :: '*' :: (m ++ '*' :: '/' :: r))
    (hfront : ∀ x ∈ front, isBlank x = true) (hm : ¬ ['*', '/'] <:+: m) :
    ∃ c, s = front ++ '/' :: '*' :: (c ++ '*' :: '/' :: r) ∧ ¬ ['*', '/'] <:+: c := by
  rcases List.exists_or_eq_self_of_eraseP isStampLine (splitAt '\n' s) with
    hnone | ⟨l, as, bs, hbefore, hl, hsplit, hdrop⟩
  · rw [dropStamp, hnone, intercalate_splitAt] at h
    exact ⟨m, h, hm⟩
  have hopens := hs as l bs hsplit (by simpa using hbefore) hl
  rw [intercalate_append_cons, List.intercalate_singleton] at hopens
  obtain ⟨blank, c, has, hblank, hc⟩ := headed_of_stamp hopens hl
  have hwhole := intercalate_splitAt '\n' s
  rw [hsplit, intercalate_append_cons] at hwhole
  rw [dropStamp, hdrop] at h
  cases bs with
  | nil =>
    -- without a line behind it, the line with the time would stand behind the comment's end
    rw [List.append_nil] at h
    have hclosed := closed_of_intercalate has hblank h hfront
    exact absurd (hclosed.trans (List.prefix_append _ _).isInfix) hc
  | cons b bs =>
    rw [intercalate_append_cons] at h
    rw [List.intercalate_cons_cons, List.append_assoc, List.singleton_append] at hwhole
    rw [← hwhole]
    exact headed_of_broken has hblank hc h hfront hm

/-- A text starts with a header comment and has the line with the time in it, whatever else that line
holds, if the comment goes on behind it. -/
theorem stampInHeader_append (hn : '\n' ∉ l) (hl : isStampLine l = true) (hc : ¬ ['*', '/'] <:+: l)
    (r : List Char) : StampInHeader (Layout.opening.toList ++ '\n' :: (l ++ '\n' :: r)) := by
  intro as l' bs hsplit has hl'
  obtain ⟨⟨o, ho, hslash⟩, -, hlines⟩ := opening_toList
  have hopening : ∀ x ∈ splitAt '\n' Layout.opening.toList, ¬ isStampLine x = true :=
    List.any_eq_false.1 hlines
  rw [splitAt_append_cons, splitAt_append_cons, splitAt_of_not_mem hn, List.singleton_append] at hsplit
  obtain ⟨rfl, rfl, -⟩ := append_cons_inj_of_first (p := (isStampLine · = true)) hopening hl
    (by simpa using has) hl' hsplit
  rw [← splitAt_of_not_mem hn, ← splitAt_append_cons, intercalate_splitAt, ho]
  exact ⟨[], o ++ '\n' :: l, rfl, nofun, not_infix_append_cons
    (fun hclosed => hslash (hclosed.subset (by simp))) hc (by decide) (by decide)⟩

/-! ## Texts that are compared as equal -/

/-- A text that is compared as equal to a generated one declares what the generated body declares, if its
line with the time stands in its header. -/
theorem printed_declarations_of_normal (htext : '\r' ∉ text.toList) (hbody : '\r' ∉ body.toList)
    (hends : EndsStatement body) (hs : StampInHeader text.toList)
    (h : normal text = normal (Layout.header t ++ "\n" ++ body)) :
    (declarations text).map Declaration.printed = (declarations body).map Declaration.printed := by
  obtain ⟨m, rfl⟩ := hends.text
  have hm : '\r' ∉ m.toList := fun hmem => hbody (by simp [hmem])
  obtain ⟨⟨o, ho, hslash⟩, -, -⟩ := opening_toList
  have hinside : '/' ∉ o ++ ['\n', ' '] := by simp [hslash]
  have hunified : unifyLineEnds text.toList = text.toList := by
    simpa [unifyLineEnds] using unifyLineEnds_append (r := []) htext
  have hnormal : trim (dropStamp text.toList)
      = '/' :: '*' :: (o ++ ['\n', ' '] ++ '*' :: '/' :: ('\n' :: '\n' :: (m.toList ++ [';']))) := by
    rw [Layout.normal_terminated t hm, normal, hunified] at h
    have hlist := congrArg String.toList h
    rw [String.toList_ofList] at hlist
    rw [hlist]
    simp [ho]
  obtain ⟨front, back, hdrop, hfront, hback⟩ := exists_blanks_trim (dropStamp text.toList)
  rw [hnormal] at hdrop
  obtain ⟨c, htext', hc⟩ := headed_of_dropStamp
    (r := '\n' :: '\n' :: (m.toList ++ ';' :: back)) hs (by simpa using hdrop) hfront
    fun hclosed => hinside (hclosed.subset (by simp))
  have hcomment : Closed Breaks (front ++ (('/' :: '*' :: (c ++ ['*', '/'])) ++ ['\n', '\n'])) :=
    (closed_blanks hfront).append_closed ((closed_comment hc breaks_single).append_closed
      (closed_blanks (by simp; decide)))
  have hwhole : text = String.ofList (front ++ (('/' :: '*' :: (c ++ ['*', '/'])) ++ ['\n', '\n']))
      ++ (m ++ ";" ++ String.ofList back) := by
    rw [← String.toList_inj, htext']
    simp
  rw [hwhole, Closed.declarations_behind (by rwa [String.toList_ofList]), hends.declarations_blanks
    (by simpa using hback)]

theorem stampInHeader_text (t : Timestamp) (body : String) :
    StampInHeader (Layout.header t ++ "\n" ++ body).toList := by
  have hclosed : ¬ ['*', '/'] <:+: (Layout.stampLine t).toList := fun hclosed =>
    slash_not_mem_stampLine t (hclosed.subset (by simp))
  rw [header_toList]
  exact stampInHeader_append (lineEnd_not_mem_stampLine t).1 (isStampLine_stampLine t) hclosed _

/-- A generated text declares what its body declares. -/
theorem printed_declarations_text (t : Timestamp) (hbody : '\r' ∉ body.toList)
    (hends : EndsStatement body) :
    (declarations (Layout.header t ++ "\n" ++ body)).map Declaration.printed
      = (declarations body).map Declaration.printed := by
  obtain ⟨-, hopening, -⟩ := opening_toList
  have hheader : '\r' ∉ (Layout.header t ++ "\n" ++ body).toList := by
    rw [header_toList]
    simp [hopening, (lineEnd_not_mem_stampLine t).2, hbody]
  exact printed_declarations_of_normal hheader hbody hends (stampInHeader_text t body) rfl

/-- A text that is compared as equal to a generated one declares what the generated one declares, if its
line with the time stands in its header. -/
theorem printed_declarations_eq (htext : '\r' ∉ text.toList) (hbody : '\r' ∉ body.toList)
    (hends : EndsStatement body) (hs : StampInHeader text.toList)
    (h : normal text = normal (Layout.header t ++ "\n" ++ body)) :
    (declarations text).map Declaration.printed
      = (declarations (Layout.header t ++ "\n" ++ body)).map Declaration.printed := by
  rw [printed_declarations_of_normal htext hbody hends hs h, printed_declarations_text t hbody hends]

end Drift

end TableRoster
