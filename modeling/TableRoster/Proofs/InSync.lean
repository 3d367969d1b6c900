import TableRoster.Proofs.Closing
import TableRoster.Proofs.Drift.Header
import TableRoster.Proofs.Previous

/-! # What a good verdict is worth

A file that is found to be in sync declares what the tables make, if the line that is left out of the
comparison stands in its header. -/

namespace TableRoster

open Source Disk

variable {s : Settings} {d : Disk} {t : Timestamp} {v : Verdict} {path : Path} {text : String}

/-! ## What a good verdict says -/

/-- A text is read with line feeds for line ends. -/
theorem cr_not_mem_of_read? (h : (Output.read? path d).result = .ok (some text)) :
    '\r' ∉ text.toList := by
  unfold Output.read? at h
  split at h
  · split at h
    · rename_i x hx
      cases h
      unfold Disk.text Disk.textOf at hx
      split at hx
      · split at hx
        · cases hx
          rw [String.toList_ofList]
          exact Text.cr_not_mem_unifyLineEnds _
        · cases hx
      · cases hx
    · cases h
  · cases h

/-- Behind a good verdict, there are a file and an aggregate module that are compared as equal. -/
theorem exists_of_valid (h : (validate s t d).result = .ok v) (hv : v.isValid = true) :
    ∃ text a, (Output.read? s.outputFile d).result = .ok (some text)
      ∧ (Collection.aggregate s s.outputFolder t d).result = .ok (some a)
      ∧ Drift.normal text = Drift.normal a.text := by
  obtain ⟨made, previous, ha, hp, rfl⟩ := of_validate h
  cases made with
  | none => cases hv
  | some a =>
    rw [isValid_verdictOn rfl] at hv
    cases previous with
    | none => cases hv
    | some text => exact ⟨text, a, hp, ha, by simpa [isUnchanged] using hv⟩

/-- A good verdict means that there is a file, and that at any time there is an aggregate module. The two
declare the same if the first line with a time of the file, where it has one, belongs to the comment that
the file starts with and does not close it, and if the body ends a statement and holds no `CR`. -/
theorem declares_of_valid (h : (validate s t d).result = .ok v) (hv : v.isValid = true) :
    ∃ (text : String) (a : Aggregate), (Output.read? s.outputFile d).result = .ok (some text)
      ∧ ∀ u, (Collection.aggregate s s.outputFolder u d).result = .ok (some { a with time := u })
        ∧ (Drift.StampInHeader text.toList → EndsStatement a.body → '\r' ∉ a.body.toList →
          (declarations text).map Declaration.printed
            = (declarations { a with time := u }.text).map Declaration.printed) := by
  obtain ⟨text, a, hread, ha, hnormal⟩ := exists_of_valid h hv
  refine ⟨text, a, hread, fun u => ⟨?_, fun hstamp hends hbody => ?_⟩⟩
  · rw [Collection.aggregate_time t, ha]
    rfl
  · rw [← normal_text a u] at hnormal
    exact Drift.printed_declarations_eq (cr_not_mem_of_read? hread) hbody hends hstamp hnormal

/-! ## A file with another line with a time -/

/-- Settings for an aggregate without types and without names. -/
def plainSettings : Settings :=
  { linkedSettings with emitTypes := false, emitNames := false }

theorem valid_plainSettings : plainSettings.Valid :=
  ⟨valid_linkedSettings.include_ok, valid_linkedSettings.exclude_ok, valid_linkedSettings.marker_ok,
    valid_linkedSettings.aggregate_ok⟩

/-- The body that the own table makes. -/
def plainBody : String :=
  Layout.body plainSettings [ownTable]

/-- What the own table makes, with something else behind the label of the time. -/
def stampedText (stamp : String) : String :=
  Layout.opening ++ "\n" ++ (" * " ++ Layout.stampLabel ++ stamp) ++ "\n" ++ (" */\n\n" ++ plainBody)

theorem toList_stampedText (stamp : String) : (stampedText stamp).toList = Layout.opening.toList
    ++ '\n' :: ((" * " ++ Layout.stampLabel ++ stamp).toList ++ '\n' :: (" */\n\n" ++ plainBody).toList) := by
  simp [stampedText]

/-- A label with anything behind it makes a line with a time, on one line. -/
theorem isStampLine_label {stamp : String} (hs : OneLine stamp) :
    '\n' ∉ (" * " ++ Layout.stampLabel ++ stamp).toList
      ∧ '\r' ∉ (" * " ++ Layout.stampLabel ++ stamp).toList
      ∧ Drift.isStampLine (" * " ++ Layout.stampLabel ++ stamp).toList = true := by
  obtain ⟨hn, hr⟩ := hs
  simp [Layout.stampLabel, Drift.isStampLine, Drift.isIndent, hn, hr]

theorem endsStatement_plainBody : EndsStatement plainBody :=
  Layout.endsStatement_body valid_plainSettings (by simp)
    (List.forall_mem_singleton.2 ⟨by decide, by simp [Quotable, ownTable]⟩)

theorem cr_not_mem_plainBody : '\r' ∉ plainBody.toList :=
  Layout.cr_not_mem_body valid_plainSettings (List.forall_mem_singleton.2 ⟨by decide, by decide⟩)

theorem cr_not_mem_stampedText {stamp : String} (hs : OneLine stamp) :
    '\r' ∉ (stampedText stamp).toList := by
  obtain ⟨-, hopening, -⟩ := Drift.opening_toList
  simp [toList_stampedText, hopening, Layout.stampLabel, hs.2, cr_not_mem_plainBody]

/-- A comment that is closed on the line with the time lets what stands behind it be read. -/
theorem printed_declarations_stampedText (code : String) :
    (declarations (stampedText (" */" ++ code))).map Declaration.printed
      = (declarations (code ++ "\n */\n\n" ++ plainBody)).map Declaration.printed := by
  obtain ⟨⟨o, ho, hslash⟩, -, -⟩ := Drift.opening_toList
  have hopen : '/' ∉ o ++ "\n * Generated at: ".toList := by simp [hslash]
  have hclosed : ¬ ['*', '/'] <:+: o ++ "\n * Generated at: ".toList := fun hinside =>
    hopen (hinside.subset (by simp))
  have hcomment : Closed Breaks (Layout.opening ++ "\n * Generated at: " ++ "*/").toList := by
    have hall := closed_comment hclosed breaks_single
    simpa [ho] using hall
  have htext : stampedText (" */" ++ code) = Layout.opening ++ "\n * Generated at: " ++ "*/"
      ++ (code ++ "\n */\n\n" ++ plainBody) := by
    simp [← String.toList_inj, stampedText, Layout.stampLabel]
  rw [htext, hcomment.declarations_behind]

/-! ## The file on a disk -/

theorem aggregate_previousDisk (bytes : ByteArray) (u : Timestamp) :
    (Collection.aggregate plainSettings plainSettings.outputFolder u (previousDisk bytes)).result
      = .ok (some ⟨plainBody, u, [ownTable]⟩) := by
  have htables : (Collection.tables plainSettings plainSettings.outputFolder missingDisk).result
      = .ok [ownTable] := eq_ok_of_toOption (by decide +kernel)
  exact Collection.aggregate_apart (same_previousDisk bytes) isTree_missingDisk (isTree_previousDisk bytes)
    placed_missingDisk (.inr ⟨_, _, node?_previousDisk bytes⟩) (aggregate_of_tables htables rfl)

theorem read?_previousText {text : String} (hr : '\r' ∉ text.toList) :
    (Output.read? plainSettings.outputFile (previousDisk text.toUTF8)).result = .ok (some text) := by
  have hfile := node?_previousDisk text.toUTF8
  have hplaced := placed_missingDisk.apart (same_previousDisk _) isTree_missingDisk
    (isTree_previousDisk _) (.inr ⟨_, _, hfile⟩)
  have hunified : Text.unifyLineEnds text.toList = text.toList := by
    simpa [Text.unifyLineEnds] using Text.unifyLineEnds_append (r := []) hr
  have hread := Output.read?_of_stat (hplaced.stat (isTree_previousDisk _) hfile)
  rwa [hunified, String.ofList_toList] at hread

theorem read?_previousDisk {stamp : String} (hs : OneLine stamp) :
    (Output.read? plainSettings.outputFile (previousDisk (stampedText stamp).toUTF8)).result
      = .ok (some (stampedText stamp)) :=
  read?_previousText (cr_not_mem_stampedText hs)

/-- A file of the tables of a disk is in sync, whatever stands behind the label of the time. -/
theorem validate_previousDisk {stamp : String} (hs : OneLine stamp) (t : Timestamp) :
    (validate plainSettings t (previousDisk (stampedText stamp).toUTF8)).result = .ok .inSync := by
  obtain ⟨hn, hr, hline⟩ := isStampLine_label hs
  have hcompared : Drift.normal (Layout.header t ++ "\n" ++ plainBody)
      = Drift.normal (stampedText stamp) := by
    rw [Drift.normal_eq, Drift.normal_line hn hr hline (toList_stampedText stamp)]
  rw [validate_result, aggregate_previousDisk, read?_previousDisk hs]
  simp only [Except.bind, Option.map_some, verdictOn, Aggregate.text, hcompared, ↓reduceIte]

/-- A file with no time behind the label declares what the tables make at any time. -/
theorem declares_of_valid_never :
    (validate plainSettings (linkedTime 6)
        (previousDisk (stampedText " never").toUTF8)).result = .ok .inSync
      ∧ (declarations (stampedText " never")).map Declaration.printed
        = (declarations (Layout.header (linkedTime 7) ++ "\n" ++ plainBody)).map Declaration.printed := by
  have hs : OneLine " never" := by decide
  have hvalid := validate_previousDisk hs (linkedTime 6)
  obtain ⟨text, a, hread, hdeclares⟩ := declares_of_valid hvalid rfl
  obtain ⟨ha, hsame⟩ := hdeclares (linkedTime 7)
  rw [read?_previousDisk hs, Except.ok.injEq, Option.some.injEq] at hread
  rw [aggregate_previousDisk, Except.ok.injEq, Option.some.injEq] at ha
  obtain ⟨hbody, -⟩ := Aggregate.mk.inj ha
  obtain ⟨hn, -, hline⟩ := isStampLine_label hs
  have hstamp : Drift.StampInHeader text.toList := by
    rw [← hread, toList_stampedText]
    exact Drift.stampInHeader_append hn hline (by decide) _
  rw [← ha, ← hread, ← hbody] at hsame
  exact ⟨hvalid, hsame (hread ▸ hstamp) endsStatement_plainBody cr_not_mem_plainBody⟩

/-- A file with code on the line with the time is in sync, and declares what no table makes. -/
theorem valid_file_declares_more :
    ∃ text a, IsTree (previousDisk text.toUTF8)
      ∧ (validate plainSettings (linkedTime 6) (previousDisk text.toUTF8)).result = .ok .inSync
      ∧ (Output.read? plainSettings.outputFile (previousDisk text.toUTF8)).result = .ok (some text)
      ∧ (Collection.aggregate plainSettings plainSettings.outputFolder (linkedTime 6)
        (previousDisk text.toUTF8)).result = .ok (some a)
      ∧ (declarations text).map Declaration.printed
        = ("b", "const", some "1", some "b") :: (declarations a.text).map Declaration.printed := by
  have hs : OneLine (" */" ++ " export const b = 1; /*") := by decide
  have hmade := Drift.printed_declarations_text (linkedTime 6) cr_not_mem_plainBody endsStatement_plainBody
  refine ⟨_, _, isTree_previousDisk _, validate_previousDisk hs _, read?_previousDisk hs,
    aggregate_previousDisk _ _, ?_⟩
  rw [printed_declarations_stampedText, Aggregate.text, hmade]
  decide +kernel

end TableRoster
