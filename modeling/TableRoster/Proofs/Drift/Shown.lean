import TableRoster.Proofs.Drift.Counts
import TableRoster.Proofs.InSync
import TableRoster.Proofs.Path.Parts

/-! # Drift that is shown

Texts are compared as a whole, and their differences are told line by line, where more characters end a
line than a line feed. So a file that differs from what is expected in such a character alone has drifted,
and no difference is shown. -/

namespace TableRoster

/-! ## Lines with any line ends -/

namespace Text

variable {a b s : List Char} {c : Char}

/-- A line feed for every character that ends a line. -/
def evenEnd (c : Char) : Char :=
  if isLineEnd c then '\n' else c

theorem isLineEnd_evenEnd (c : Char) : isLineEnd (evenEnd c) = isLineEnd c := by
  unfold evenEnd
  split
  · rename_i h
    rw [h]
    rfl
  · rfl

theorem evenEnd_ne_cr (h : c ≠ '\r') : evenEnd c ≠ '\r' := by
  unfold evenEnd
  split
  · decide
  · exact h

theorem splitLines_cons (hc : c ≠ '\r') (s : List Char) : splitLines (c :: s)
    = if isLineEnd c then [] :: splitLines s
      else match splitLines s with
        | [] => [[c]]
        | l :: ls => (c :: l) :: ls :=
  splitLines.eq_3 c s fun _ h => absurd h hc

theorem splitLines_ne_nil (h : s ≠ []) : splitLines s ≠ [] := by
  fun_cases splitLines s <;> simp_all

theorem mem_of_mem_splitLines {l : List Char} (hl : l ∈ splitLines s) (hc : c ∈ l) : c ∈ s := by
  fun_induction splitLines s generalizing l <;> grind

/-- Lines are the same with other line ends. -/
theorem splitLines_map_evenEnd (hs : '\r' ∉ s) : splitLines (s.map evenEnd) = splitLines s := by
  induction s with
  | nil => rfl
  | cons c s ih =>
    obtain ⟨hc, hs⟩ := not_or.1 (List.mem_cons.not.1 hs)
    rw [List.map_cons, splitLines_cons (evenEnd_ne_cr (Ne.symm hc)), splitLines_cons (Ne.symm hc),
      isLineEnd_evenEnd, ih hs]
    split
    · rfl
    · rename_i hend
      rw [evenEnd, if_neg hend]

/-- A text that does not end a line is its lines with line feeds between them, but for its line ends. -/
theorem intercalate_splitLines (hs : '\r' ∉ s) (hlast : ∀ c ∈ s.getLast?, isLineEnd c = false) :
    ['\n'].intercalate (splitLines s) = s.map evenEnd := by
  induction s with
  | nil => rfl
  | cons c s ih =>
    obtain ⟨hc, hs⟩ := not_or.1 (List.mem_cons.not.1 hs)
    obtain rfl | hne := eq_or_ne s []
    · have hend : isLineEnd c = false := hlast c rfl
      simp [splitLines_cons (Ne.symm hc), splitLines, hend, evenEnd]
    · have htail : ∀ x ∈ s.getLast?, isLineEnd x = false := fun x hx =>
        hlast x (by rwa [List.getLast?_cons_of_ne_nil hne])
      obtain ⟨l, ls, hl⟩ := List.exists_cons_of_ne_nil (splitLines_ne_nil hne)
      have hrest := ih hs htail
      rw [hl] at hrest
      rw [splitLines_cons (Ne.symm hc), hl, List.map_cons, ← hrest, evenEnd]
      split
      · simp
      · cases ls <;> simp

/-- Texts that do not end a line have the same lines where they differ in line ends alone. -/
theorem splitLines_eq_iff (ha : '\r' ∉ a) (hb : '\r' ∉ b) (ha' : ∀ c ∈ a.getLast?, isLineEnd c = false)
    (hb' : ∀ c ∈ b.getLast?, isLineEnd c = false) :
    splitLines a = splitLines b ↔ a.map evenEnd = b.map evenEnd := by
  constructor
  · intro h
    rw [← intercalate_splitLines ha ha', ← intercalate_splitLines hb hb', h]
  · intro h
    rw [← splitLines_map_evenEnd ha, h, splitLines_map_evenEnd hb]

theorem isBlank_of_isLineEnd (h : isLineEnd c = true) : isBlank c = true := by
  simp only [isLineEnd, Bool.or_eq_true, beq_iff_eq] at h
  rcases h with ((((((((rfl | rfl) | rfl) | rfl) | rfl) | rfl) | rfl) | rfl) | rfl) | rfl <;> decide

theorem not_isBlank_of_trim (h : c ∈ (trim s).getLast?) : isBlank c = false := by
  rw [trim, trimBy, List.getLast?_reverse] at h
  have hfirst := List.head?_dropWhile_not isBlank (s.dropWhile isBlank).reverse
  rw [h] at hfirst
  exact hfirst

end Text

namespace Drift

open Text

variable {n : Nat} {a e : String}

/-! ## What is compared -/

theorem cr_not_mem_normal (s : String) : '\r' ∉ (normal s).toList := by
  rw [normal, String.toList_ofList]
  intro h
  obtain ⟨front, back, hall, -⟩ := exists_blanks_trim (dropStamp (unifyLineEnds s.toList))
  have hdrop : '\r' ∈ dropStamp (unifyLineEnds s.toList) := by
    rw [hall]
    simp [h]
  rcases mem_of_mem_intercalate hdrop with hbreak | ⟨l, hl, hr⟩
  · exact absurd hbreak (by decide)
  · exact cr_not_mem_unifyLineEnds _ ((mem_of_mem_splitAt (List.mem_of_mem_eraseP hl)).2 _ hr)

theorem not_isLineEnd_of_normal (s : String) : ∀ c ∈ (normal s).toList.getLast?, isLineEnd c = false := by
  intro c hc
  rw [normal, String.toList_ofList] at hc
  by_contra hend
  have hblank := isBlank_of_isLineEnd (Bool.not_eq_false _ ▸ hend)
  rw [not_isBlank_of_trim hc] at hblank
  cases hblank

/-- Texts that differ only in the characters that end their lines. -/
def SameButLineEnds (a e : String) : Prop :=
  a.toList.map evenEnd = e.toList.map evenEnd

instance : DecidableRel SameButLineEnds := fun _ _ => inferInstanceAs (Decidable (_ = _))

/-- A text all of whose lines end with line feeds. -/
def OnlyLineFeeds (s : String) : Prop :=
  ∀ c ∈ s.toList, isLineEnd c = true → c = '\n'

instance : DecidablePred OnlyLineFeeds := fun s =>
  decidable_of_iff (s.toList.all fun c => !isLineEnd c || c == '\n') <| by
    simp [OnlyLineFeeds, imp_iff_not_or]

theorem OnlyLineFeeds.map_evenEnd {s : String} (h : OnlyLineFeeds s) : s.toList.map evenEnd = s.toList := by
  refine (List.map_congr_left fun c hc => ?_).trans (List.map_id _)
  unfold evenEnd
  split
  · rename_i hend
    exact (h c hc hend).symm
  · rfl

/-- No line starts with a mark twice where the mark does not occur. -/
theorem isDoubled_of_not_mem {mark : Char} {s : String} (h : mark ∉ s.toList) :
    ∀ l ∈ linesOf s, isDoubled mark l = false := by
  refine List.forall_mem_map.2 fun l hl => Bool.eq_false_iff.2 fun hdoubled => h ?_
  rw [isDoubled, String.toList_ofList] at hdoubled
  have hmem : mark ∈ l := (List.isPrefixOf_iff_prefix.1 hdoubled).subset List.mem_cons_self
  exact mem_of_mem_splitLines hl hmem

theorem linesOf_normal_eq_iff (s s' : String) :
    linesOf (normal s) = linesOf (normal s') ↔ SameButLineEnds (normal s) (normal s') := by
  have hinjective : ∀ {x y : List (List Char)}, x.map String.ofList = y.map String.ofList ↔ x = y :=
    List.map_inj_right fun _ _ h => String.ofList_inj.1 h
  rw [linesOf, linesOf, hinjective]
  exact splitLines_eq_iff (cr_not_mem_normal s) (cr_not_mem_normal s') (not_isLineEnd_of_normal s)
    (not_isLineEnd_of_normal s')

/-! ## What is shown -/

/-- Differences are shown where the lines differ, however much context they have. -/
theorem difference_eq_nil_iff : difference n (some a) (some e) = [] ↔ linesOf a = linesOf e :=
  unifiedLines_eq_nil_iff.trans changes_script_eq_nil_iff

/-- Of texts in the form that is compared, a difference is shown unless they differ in line ends alone. -/
theorem difference_normal_eq_nil_iff {actual expected : String} :
    difference n (some (normal actual)) (some (normal expected)) = []
      ↔ SameButLineEnds (normal actual) (normal expected) :=
  difference_eq_nil_iff.trans (linesOf_normal_eq_iff actual expected)

theorem added_subset (es : List Edit) : added es ⊆ newLines es := by
  induction es with
  | nil => exact List.nil_subset _
  | cons x es ih =>
    cases x with
    | keep l => exact List.subset_cons_of_subset l ih
    | remove l => exact ih
    | add l => exact List.cons_subset_cons l ih

theorem removed_subset (es : List Edit) : removed es ⊆ oldLines es := by
  induction es with
  | nil => exact List.nil_subset _
  | cons x es ih =>
    cases x with
    | keep l => exact List.subset_cons_of_subset l ih
    | remove l => exact List.cons_subset_cons l ih
    | add l => exact ih

/-- A script that changes something adds or removes a line. -/
theorem exists_of_changes {es : List Edit} (h : changes es ≠ []) :
    (∃ l, l ∈ added es) ∨ ∃ l, l ∈ removed es := by
  induction es with
  | nil => exact absurd rfl h
  | cons x es ih =>
    cases x with
    | keep l => exact ih h
    | remove l => exact .inr ⟨l, List.mem_cons_self⟩
    | add l => exact .inl ⟨l, List.mem_cons_self⟩

end Drift

namespace Verdict

open Disk Drift

variable {s : Settings} {t : Timestamp} {d : Disk} {v : Verdict} {a e : String}

/-- A verdict with both texts is on texts that are compared as different. -/
theorem texts_of_drift (h : (validate s t d).result = .ok v) (he : v.expected? = some e)
    (ha : v.actual? = some a) : ∃ actual expected, a = normal actual ∧ e = normal expected ∧ a ≠ e := by
  obtain ⟨made, previous, -, -, rfl⟩ := of_validate h
  cases made with
  | none => cases he
  | some made =>
    cases previous with
    | none => cases ha
    | some text =>
      simp only [verdictOn, Option.map_some] at he ha
      split at he
      · cases he
      · rename_i hne
        rw [if_neg hne] at ha
        obtain rfl := Option.some.inj he
        obtain rfl := Option.some.inj ha
        exact ⟨text, made.text, rfl, rfl, Ne.symm hne⟩

/-- Nothing is shown, and nothing counted, of texts that differ in line ends alone. -/
theorem drifted_of_same (output : Path) {actual expected : String}
    (hsame : SameButLineEnds (normal actual) (normal expected)) :
    (∀ n, (drifted output (normal expected) (normal actual)).difference n = [])
      ∧ (drifted output (normal expected) (normal actual)).count? "lines_added" = some 0
      ∧ (drifted output (normal expected) (normal actual)).count? "lines_removed" = some 0 := by
  have hnone : ∀ n, Drift.difference n (some (normal actual)) (some (normal expected)) = [] := fun _ =>
    difference_normal_eq_nil_iff.2 hsame
  refine ⟨hnone, ?_, ?_⟩
  · rw [count?_added, actual?, expected?, linesAdded, hnone]
    rfl
  · rw [count?_removed, actual?, expected?, linesRemoved, hnone]
    rfl

/-! ## The file of the own table -/

/-- What a check says of a file of the own table that has another text. -/
theorem validate_previousText {text expected : String} (hr : '\r' ∉ text.toList)
    (he : normal (Layout.header t ++ "\n" ++ plainBody) = expected) (hne : expected ≠ normal text) :
    (validate plainSettings t (previousDisk text.toUTF8)).result
      = .ok (drifted plainSettings.outputFile expected (normal text)) := by
  have hexpected : normal (Aggregate.text ⟨plainBody, t, [ownTable]⟩) = expected := he
  rw [validate_result, aggregate_previousDisk, read?_previousText hr]
  simp only [Except.bind, Option.map_some, verdictOn, hexpected, if_neg hne]

theorem exists_plainBody : ∃ m : String, plainBody = m ++ ";\n" ∧ '\r' ∉ m.toList := by
  obtain ⟨m, hm⟩ := endsStatement_plainBody.text
  exact ⟨m, hm, fun hmem => cr_not_mem_plainBody (by simp [hm, hmem])⟩

/-- What is compared of what the own table makes has lines that line feeds end, and no plus. -/
theorem normal_plain (t : Timestamp) : ∃ e, normal (Layout.header t ++ "\n" ++ plainBody) = e
    ∧ '\n' ∈ e.toList ∧ '+' ∉ e.toList ∧ OnlyLineFeeds e := by
  obtain ⟨m, hm, hcr⟩ := exists_plainBody
  have hparts : ∀ s ∈ [Layout.opening, "\n */\n\n", plainBody],
      s.toList.all (fun c => c != '+' && (!Text.isLineEnd c || c == '\n')) = true := by
    decide +kernel
  have hclean : ∀ c ∈ (Layout.opening ++ "\n" ++ " */\n\n" ++ (m ++ ";")).toList,
      c ≠ '+' ∧ (Text.isLineEnd c = true → c = '\n') := by
    intro c hc
    have hpart : c ∈ Layout.opening.toList ∨ c ∈ "\n */\n\n".toList ∨ c ∈ plainBody.toList := by
      rw [hm]
      simp only [String.toList_append, List.mem_append] at hc ⊢
      grind
    have hall : c != '+' && (!Text.isLineEnd c || c == '\n') := by
      simp only [List.forall_mem_cons, List.all_eq_true] at hparts
      obtain ⟨hopening, hbreaks, hbody, -⟩ := hparts
      exact hpart.elim (hopening c) (Or.elim · (hbreaks c) (hbody c))
    simpa [imp_iff_not_or] using hall
  refine ⟨_, by rw [hm, Layout.normal_terminated t hcr], by simp, fun hmem => (hclean _ hmem).1 rfl,
    fun c hc => (hclean c hc).2⟩

/-- What the own table makes, with a form feed for the line feed in front of the body. -/
def pagedText : String :=
  Layout.header (linkedTime 6) ++ "\x0c" ++ plainBody

/-! ## What a check shows -/

/-- Where a check tells both texts, their differences are shown unless they differ in line ends alone, and
they are counted exactly if a line that changes does not start with the mark of its change twice. So both
hold where line feeds end all lines, and no line starts with two marks. -/
theorem drift_shown (h : (validate s t d).result = .ok v) (he : v.expected? = some e)
    (ha : v.actual? = some a) :
    (∀ n, v.difference n ≠ [] ↔ ¬ SameButLineEnds a e)
    ∧ ∃ m k, v.count? "lines_added" = some m ∧ v.count? "lines_removed" = some k
      ∧ (0 < m + k ↔ (∃ l ∈ added (scriptBetween a e), isDoubled '+' l = false)
        ∨ ∃ l ∈ removed (scriptBetween a e), isDoubled '-' l = false)
      ∧ (OnlyLineFeeds a → OnlyLineFeeds e → (∀ l ∈ linesOf a, isDoubled '-' l = false) →
        (∀ l ∈ linesOf e, isDoubled '+' l = false) → (∀ n, v.difference n ≠ []) ∧ 0 < m + k) := by
  obtain ⟨actual, expected, hactual, hexpected, hne⟩ := texts_of_drift h he ha
  have hturns : Turns (scriptBetween a e) (linesOf a) (linesOf e) := script_turns _ _
  have hshown : ∀ n, v.difference n ≠ [] ↔ ¬ SameButLineEnds a e := by
    intro n
    refine not_congr ?_
    rw [Verdict.difference, he, ha, hactual, hexpected]
    exact difference_normal_eq_nil_iff
  have hcounted : 0 < linesAdded v.actual? v.expected? + linesRemoved v.actual? v.expected?
      ↔ (∃ l ∈ added (scriptBetween a e), isDoubled '+' l = false)
        ∨ ∃ l ∈ removed (scriptBetween a e), isDoubled '-' l = false := by
    rw [he, ha, linesAdded_eq, linesRemoved_eq, Nat.add_pos_iff_pos_or_pos, List.countP_pos_iff,
      List.countP_pos_iff]
    simp
  refine ⟨hshown, _, _, count?_added v, count?_removed v, hcounted, fun hla hle hminus hplus => ?_⟩
  have hends : ¬ SameButLineEnds a e := fun hsame => hne <| by
    rwa [SameButLineEnds, hla.map_evenEnd, hle.map_evenEnd, String.toList_inj] at hsame
  refine ⟨fun n => (hshown n).2 hends, hcounted.2 ?_⟩
  have hchange : changes (scriptBetween a e) ≠ [] := fun hnone => hends <| by
    rw [hactual, hexpected] at hnone ⊢
    exact (linesOf_normal_eq_iff actual expected).1 (changes_script_eq_nil_iff.1 hnone)
  refine (exists_of_changes hchange).imp (fun ⟨l, hl⟩ => ⟨l, hl, hplus l ?_⟩)
    fun ⟨l, hl⟩ => ⟨l, hl, hminus l ?_⟩
  · exact hturns.new_eq ▸ added_subset _ hl
  · exact hturns.old_eq ▸ removed_subset _ hl

/-- A file of one short line is shown to differ from what the own table makes. -/
theorem drift_shown_stale : ∃ v a e, (validate plainSettings (linkedTime 6)
      (previousDisk "b".toUTF8)).result = .ok v
    ∧ v.expected? = some e ∧ v.actual? = some a ∧ OnlyLineFeeds a ∧ OnlyLineFeeds e
    ∧ (∀ l ∈ linesOf a, isDoubled '-' l = false) ∧ (∀ l ∈ linesOf e, isDoubled '+' l = false)
    ∧ (∀ n, v.difference n ≠ []) ∧ ∃ m k, v.count? "lines_added" = some m
      ∧ v.count? "lines_removed" = some k ∧ 0 < m + k := by
  obtain ⟨e, he, hbreak, hplus, hfeeds⟩ := normal_plain (linkedTime 6)
  have hactual : normal "b" = "b" := by decide +kernel
  have hne : e ≠ "b" := by
    rintro rfl
    exact absurd hbreak (by decide)
  have hvalidate := validate_previousText (by decide) he (hactual ▸ hne)
  rw [hactual] at hvalidate
  have hdoubled := isDoubled_of_not_mem hplus
  obtain ⟨-, m, k, hm, hk, -, hboth⟩ := drift_shown hvalidate rfl rfl
  obtain ⟨hshown, hpos⟩ := hboth (by decide) hfeeds (by decide) hdoubled
  exact ⟨_, _, _, hvalidate, rfl, rfl, by decide, hfeeds, by decide, hdoubled, hshown, m, k, hm, hk, hpos⟩

/-- Of a file with a form feed for a line feed, drift is told, and no difference. -/
theorem drift_not_shown : IsTree (previousDisk pagedText.toUTF8)
    ∧ ∃ v a e, (validate plainSettings (linkedTime 6) (previousDisk pagedText.toUTF8)).result = .ok v
      ∧ v.isValid = false ∧ v.actual? = some a ∧ v.expected? = some e ∧ a ≠ e
      ∧ (∀ n, v.difference n = []) ∧ v.count? "lines_added" = some 0
      ∧ v.count? "lines_removed" = some 0 := by
  obtain ⟨m, hm, hcr⟩ := exists_plainBody
  have hexpected : normal (Layout.header (linkedTime 6) ++ "\n" ++ plainBody)
      = Layout.opening ++ "\n" ++ " */\n\n" ++ (m ++ ";") := by
    rw [hm, Layout.normal_terminated _ hcr]
  have htext : pagedText = Layout.opening ++ "\n" ++ Layout.stampLine (linkedTime 6) ++ "\n"
      ++ (" */\n\x0c" ++ m ++ ";\n") := by
    simp [← String.toList_inj, pagedText, Layout.header, hm]
  have hactual : normal pagedText = Layout.opening ++ "\n" ++ (" */\n\x0c" ++ m ++ ";") := by
    rw [htext, Layout.normal_stamped _ (by simp [hcr])]
  have hne : normal (Layout.header (linkedTime 6) ++ "\n" ++ plainBody) ≠ normal pagedText := by
    rw [hexpected, hactual]
    simp [← String.toList_inj]
  have hsame : SameButLineEnds (normal pagedText)
      (normal (Layout.header (linkedTime 6) ++ "\n" ++ plainBody)) := by
    rw [hexpected, hactual]
    simp [SameButLineEnds, Text.evenEnd, Text.isLineEnd]
  have hread : '\r' ∉ pagedText.toList := by
    rw [htext]
    simp [hcr, Drift.opening_toList.2.1, (Drift.lineEnd_not_mem_stampLine _).2]
  exact ⟨isTree_previousDisk _, _, _, _, validate_previousText hread rfl hne, rfl, rfl, rfl,
    hne.symm, drifted_of_same _ hsame⟩

end Verdict

end TableRoster
