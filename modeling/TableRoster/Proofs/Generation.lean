import TableRoster.Proofs.Agreement
import TableRoster.Proofs.Disk.Above

/-! # A generation is all or nothing

The file beside the output is gone however a generation ends, so only folders above the output may be
left by one that does not write. One that writes changes the output, and nothing else. -/

namespace TableRoster

open Disk

/-! ## Writing the file -/

namespace Output

variable {d : Disk} {path : Path}

/-- Folders above the file are made, and then the file takes its place, or it fails and no more is
left. -/
theorem write_cases (content : String) (ht : IsTree d)
    (hi : ∀ x ∈ path.parts, isImpossible x = false) :
    ∃ d₁, GrownAbove path.parent d d₁
      ∧ ((write path content d).1.result ≠ .ok () ∧ (write path content d).2 = d₁
        ∨ (write path content d).1.result = .ok () ∧ ∃ time,
          (write path content d).2 = d₁.put (place d path) (.file content.toUTF8 time)) := by
  have habove := grownAbove_makeFolders ht
    fun x (hx : x ∈ path.parent.parts) => hi x (List.dropLast_subset _ hx)
  unfold write
  rcases hm : d.makeFolders path.parent with ⟨⟨f⟩ | ⟨⟩, d₁⟩
  · rw [hm] at habove
    exact ⟨d₁, habove, .inl ⟨by simp [Telling.fail], rfl⟩⟩
  simp only [hm] at habove
  cases htemp : temporary d₁ path with
  | error f => exact ⟨d₁, habove, .inl ⟨by simp [htemp, Telling.fail], by simp [htemp]⟩⟩
  | ok r =>
    obtain ⟨q, name, rfl, hname, hq, hnone, -⟩ := temporary_eq_ok habove.tree htemp
    obtain ⟨htf, hgf⟩ := writeAt_grown content.toUTF8 habove.tree hname hq hnone
    have hgone := erase_writeAt (by simp) hnone content.toUTF8
    refine ⟨{ d₁ with now := d₁.now + tick }, habove.set_now _, ?_⟩
    simp only [htemp]
    cases hmove : (d₁.writeAt (q ++ [name]) content.toUTF8).moveTo (q ++ [name])
        (.file content.toUTF8 d₁.now) path with
    | error f => exact .inl ⟨fun h => (by cases h), hgone⟩
    | ok done =>
      obtain ⟨-, -, -, -, rfl⟩ := moveTo_eq_ok htf hmove
      rw [place_eq_of_grown hgf, place_eq_of_grown (habove.grown []), hgone]
      exact .inr ⟨rfl, d₁.now, rfl⟩

end Output

/-! ## Generating -/

variable {s : Settings} {d : Disk} {t : Timestamp} {g : Generated}

/-- A generation that does not write keeps every place. -/
theorem kept_of_not_written (ht : IsTree d)
    (h : ∀ g, (generate s t d).1.result = .ok g → g.written = false) (p : Place) :
    Kept s.outputFile.parent d (generate s t d).2 p := by
  obtain hdisk | ⟨a, previous, ha, hp, hdisk⟩ := generate_disk (s := s) (d := d) (t := t)
  · exact .inl (by rw [hdisk])
  · have hresult := (generate_some ha hp).1
    obtain ⟨d₁, habove, ⟨-, hleft⟩ | ⟨hw, -⟩⟩ :=
      Output.write_cases a.text ht (possible_of_aggregate ha)
    · rw [hdisk, hleft]
      exact habove.kept p
    · rw [hw] at hresult
      exact absurd (h _ hresult) (by simp [generatedFrom])

/-- A generation is all or nothing. One that fails or finds no table makes folders above the output at
most. One that writes makes the output a file with the bytes of the text, and else folders above it at
most. -/
theorem generate_all_or_nothing (s : Settings) (t : Timestamp) (ht : IsTree d) :
    ((∀ g, (generate s t d).1.result = .ok g → g.written = false) →
        ∀ p, Kept s.outputFile.parent d (generate s t d).2 p)
    ∧ ∀ g, (generate s t d).1.result = .ok g → g.written = true →
        ∃ a time, g.aggregate = some a
          ∧ (generate s t d).2.node? (Output.place d s.outputFile) = some (.file a.text.toUTF8 time)
          ∧ (∀ p ≠ Output.place d s.outputFile, Kept s.outputFile.parent d (generate s t d).2 p)
          ∧ (¬ Output.IsLink d s.outputFile →
              (generate s t d).2.bytes s.outputFile = .ok a.text.toUTF8) := by
  refine ⟨kept_of_not_written ht, fun g h hw => ?_⟩
  obtain ⟨-, hn, -⟩ | ⟨a, previous, ha, hp, hwrite, rfl⟩ := generate_cases h
  · simp [hn] at hw
  · obtain ⟨-, hdisk⟩ := generate_some ha hp
    have hi := possible_of_aggregate ha
    obtain ⟨d₁, habove, ⟨hw, -⟩ | ⟨-, time, hput⟩⟩ := Output.write_cases a.text ht hi
    · exact absurd hwrite hw
    refine ⟨a, time, rfl, ?_, fun p hp => ?_, fun hl => ?_⟩
    · rw [hdisk, hput, node?_put_self d₁ _ (by simp [Output.place])]
    · rw [hdisk, hput, Kept, node?_put_of_ne d₁ _ hp]
      exact habove.kept p
    · rw [hdisk]
      exact (Output.write_written ht hi hl hwrite).bytes

/-- A disk with a folder where the output is to be written. -/
def blockedDisk : Disk :=
  ((linkedDisk "a.ts").put ["ws", "out"] .folder).put ["ws", "out", "index.ts"] .folder

/-- A generation that fails at the last step, and one that makes a folder and the output. -/
theorem generate_all_or_nothing_blocked :
    (∀ p, Kept linkedSettings.outputFile.parent blockedDisk
        (generate linkedSettings (linkedTime 5) blockedDisk).2 p)
      ∧ ∃ a : Aggregate, ∃ time,
        (linkedRun "../out/index.ts").2.node? ["ws", "out", "index.ts"]
          = some (.file a.text.toUTF8 time)
        ∧ (linkedRun "../out/index.ts").2.bytes linkedSettings.outputFile = .ok a.text.toUTF8
        ∧ ∀ p ≠ ["ws", "out", "index.ts"], Kept linkedSettings.outputFile.parent
          (linkedDisk "../out/index.ts") (linkedRun "../out/index.ts").2 p := by
  have hfails : (generate linkedSettings (linkedTime 5) blockedDisk).1.result.toOption = none := by
    decide +kernel
  have hblocked : ∀ g, (generate linkedSettings (linkedTime 5) blockedDisk).1.result = .ok g →
      g.written = false := by
    intro g hg
    rw [hg] at hfails
    cases hfails
  obtain ⟨⟨g, hg, hw⟩, -⟩ := linkedRun_written
  have hplace : Output.place (linkedDisk "../out/index.ts") linkedSettings.outputFile
      = ["ws", "out", "index.ts"] := by decide
  obtain ⟨a, time, -, hfile, hkept, hbytes⟩ := (generate_all_or_nothing linkedSettings (linkedTime 5)
    (show IsTree (linkedDisk "../out/index.ts") by decide)).2 g hg hw
  rw [hplace] at hfile hkept
  exact ⟨(generate_all_or_nothing linkedSettings (linkedTime 5)
    (show IsTree blockedDisk by decide)).1 hblocked, a, time, hfile,
    hbytes (not_isLink_linkedDisk _), hkept⟩

end TableRoster
