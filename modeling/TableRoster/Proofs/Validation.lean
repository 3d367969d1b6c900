import TableRoster.Proofs.Agreement
import TableRoster.Proofs.Layout
import TableRoster.Proofs.Settings.Reading

/-! # What a check reports

A check and a sync report a success exactly if what they leave is valid. Where nothing is to be
generated they leave the disk as it was. -/

namespace TableRoster

open Disk

variable {s : Settings} {d : Disk} {t u : Timestamp} {fix : Bool} {c : Checked} {v : Verdict}
  {a b : Aggregate} {ts ts' : List Table}

/-! ## Verdicts -/

/-- Whether a verdict is good does not depend on the time. -/
theorem validate_time (u : Timestamp) (h : (validate s t d).result = .ok v) :
    ∃ w, (validate s u d).result = .ok w ∧ w.isValid = v.isValid := by
  rw [validate_result] at h ⊢
  rw [Collection.aggregate_time t]
  cases ha : (Collection.aggregate s s.outputFolder t d).result with
  | error e => simp [ha, Except.bind] at h
  | ok made =>
    cases hp : (Output.read? s.outputFile d).result with
    | error e => simp [ha, hp, Except.bind] at h
    | ok previous =>
      rw [ha, hp] at h
      cases h
      refine ⟨_, rfl, ?_⟩
      cases made with
      | none => rfl
      | some a => rw [Option.map_some, isValid_verdictOn (normal_text a u), isValid_verdictOn rfl]

theorem aggregate_of_tables (h : (Collection.tables s s.outputFolder d).result = .ok ts)
    (ha : (Aggregate.emit s t ts).result = .ok a) :
    (Collection.aggregate s s.outputFolder t d).result = .ok (some a) := by
  simp [Collection.aggregate_result, h, ha, (Layout.emitted ha).1, Except.bind]

/-- A file that was made of tables with other symbols is not valid. -/
theorem validate_of_symbols_ne (hs : s.Valid) (hts : ∀ t ∈ ts, t.Legible) (hts' : ∀ t ∈ ts', t.Legible)
    (htables : (Collection.tables s s.outputFolder d).result = .ok ts)
    (ha : (Aggregate.emit s t ts).result = .ok a) (hb : (Aggregate.emit s u ts').result = .ok b)
    (hread : (Output.read? s.outputFile d).result
      = .ok (some (String.ofList (Text.unifyLineEnds b.text.toList))))
    (hne : ts.map (·.symbol) ≠ ts'.map (·.symbol)) :
    ∃ v, (validate s t d).result = .ok v ∧ v.isValid = false := by
  have htexts : Drift.normal a.text ≠ Drift.normal b.text := by
    obtain ⟨hsome, rfl⟩ := Layout.emitted ha
    obtain ⟨hsome', rfl⟩ := Layout.emitted hb
    intro h
    rw [Aggregate.text, Aggregate.text, Layout.normal_body t hs hts hsome,
      Layout.normal_body u hs hts' hsome'] at h
    have hblocks := Layout.core_injective hs hs hts hts' (by simpa using h)
    exact hne (Layout.blocks_injective hts hts' hblocks).1
  rw [validate_result, aggregate_of_tables htables ha, hread]
  refine ⟨_, rfl, ?_⟩
  simp only [Option.map_some, verdictOn, Drift.normal_unifyLineEnds]
  rw [if_neg htexts]
  rfl

/-! ## Checking -/

/-- Where there is no need to generate, or it is not asked for, a check only looks. -/
theorem check_of_idle (h : (validate s t d).result = .ok v) (hidle : v.isValid = true ∨ fix = false) :
    (check s t fix d).1.result = .ok ⟨v, none⟩ ∧ (check s t fix d).2 = d := by
  have hnot : ¬ (!v.isValid && fix) = true := by
    obtain h | h := hidle <;> simp [h]
  constructor
  · simp only [check, Change.bind_result, Change.look_apply, h, Except.bind, if_neg hnot]
    rfl
  · simp only [check, Change.bind_disk, Change.look_apply, h, if_neg hnot]
    rfl

theorem check_of_invalid (h : (validate s t d).result = .ok v) (hv : v.isValid = false) :
    (check s t true d).1.result = (generate s t d).1.result.map (fun g => ⟨v, some g⟩)
      ∧ (check s t true d).2 = (generate s t d).2 := by
  have hfix : (!v.isValid && true) = true := by simp [hv]
  constructor
  · simp only [check, Change.bind_result, Change.look_apply, h, Except.bind, if_pos hfix]
    cases hg : (generate s t d).1.result <;> simp [Change.tell, hg, Except.map, Telling.tell]
  · simp only [check, Change.bind_disk, Change.look_apply, h, if_pos hfix]
    cases hg : (generate s t d).1.result <;> simp [Change.tell, hg, Telling.tell]

theorem check_of_error {e : Stop} (h : (validate s t d).result = .error e) :
    (check s t fix d).1.result = .error e ∧ (check s t fix d).2 = d := by
  constructor
  · simp only [check, Change.bind_result, Change.look_apply, h, Except.bind]
  · simp only [check, Change.bind_disk, Change.look_apply, h]

/-- A sync does what a check with a fix does. -/
theorem sync_eq_check : (sync s t d).1.result = (check s t true d).1.result
    ∧ (sync s t d).2 = (check s t true d).2 := by
  simp only [sync, Change.bind_result, Change.bind_disk, Change.look_apply]
  cases h : (validate s t d).result with
  | error e =>
    obtain ⟨hresult, hdisk⟩ : (check s t true d).1.result = .error e ∧ (check s t true d).2 = d :=
      check_of_error h
    rw [hresult, hdisk]
    exact ⟨rfl, rfl⟩
  | ok v =>
    cases hv : v.isValid with
    | true =>
      obtain ⟨hresult, hdisk⟩ : (check s t true d).1.result = .ok ⟨v, none⟩
          ∧ (check s t true d).2 = d := check_of_idle h (.inl hv)
      rw [hresult, hdisk]
      simp [Except.bind, hv]
    | false =>
      obtain ⟨hresult, hdisk⟩ := check_of_invalid h hv
      rw [hresult, hdisk]
      simp only [Except.bind, hv, Bool.false_eq_true, ↓reduceIte, Change.bind_result,
        Change.bind_disk]
      cases (generate s t d).1.result <;> exact ⟨rfl, rfl⟩

/-! ## After a check -/

/-- A check that returns is a success exactly if what it leaves is valid, at any time. -/
theorem validate_after_check (ht : IsTree d) (ho : ¬ Output.IsLink d s.outputFile)
    (h : (check s t fix d).1.result = .ok c) (hl : Scan.LinksStay s d (check s t fix d).2)
    (u : Timestamp) :
    ∃ v, (validate s u (check s t fix d).2).result = .ok v ∧ v.isValid = c.ok := by
  cases hv : (validate s t d).result with
  | error e =>
    rw [(check_of_error hv).1] at h
    cases h
  | ok v =>
    by_cases hidle : v.isValid = true ∨ fix = false
    · obtain ⟨hresult, hdisk⟩ := check_of_idle hv hidle
      rw [hresult] at h
      cases h
      rw [hdisk]
      obtain ⟨w, hw, hsame⟩ := validate_time u hv
      exact ⟨w, hw, by simp [hsame, Checked.ok]⟩
    · obtain ⟨hinvalid, rfl⟩ : v.isValid = false ∧ fix = true := by simpa using hidle
      obtain ⟨hresult, hdisk⟩ := check_of_invalid hv hinvalid
      rw [hdisk] at hl ⊢
      rw [hresult] at h
      cases hg : (generate s t d).1.result with
      | error e => simp [hg, Except.map] at h
      | ok g =>
        rw [hg] at h
        cases h
        obtain ⟨hnone, hw, -⟩ | ⟨a, previous, -, -, -, rfl⟩ := generate_cases hg
        · -- without a table nothing was written, so the verdict stays a bad one
          rw [(generate_none hnone).2]
          obtain ⟨w, hvalid, hsame⟩ := validate_time u hv
          exact ⟨w, hvalid, by simp [hsame, Checked.ok, hinvalid, hw]⟩
        · exact ⟨.inSync, validate_after_generate ht ho hg rfl hl u,
            by simp [Checked.ok, Verdict.isValid, generatedFrom]⟩

/-- What a check and a sync report is true of what they leave. On a tree, with an output file that is no
link, the success of either is what a validation says afterwards, at any time, unless a link that led
nowhere was made to lead to something old that the search takes. And whatever the disk, it stays as it
was if the first validation was good, or no fix was asked for. -/
theorem check_reports_state (s : Settings) :
    (∀ (d : Disk) (t u : Timestamp) (fix : Bool) (c : Checked),
      IsTree d → ¬ Output.IsLink d s.outputFile → (check s t fix d).1.result = .ok c →
      Scan.LinksStay s d (check s t fix d).2 →
        ∃ v, (validate s u (check s t fix d).2).result = .ok v ∧ v.isValid = c.ok)
    ∧ (∀ (d : Disk) (t u : Timestamp) (c : Checked),
      IsTree d → ¬ Output.IsLink d s.outputFile → (sync s t d).1.result = .ok c →
      Scan.LinksStay s d (sync s t d).2 →
        ∃ v, (validate s u (sync s t d).2).result = .ok v ∧ v.isValid = c.ok)
    ∧ (∀ (d : Disk) (t : Timestamp), (check s t false d).2 = d)
    ∧ ∀ (d : Disk) (t : Timestamp) (fix : Bool) (v : Verdict),
      (validate s t d).result = .ok v → v.isValid = true →
        (check s t fix d).2 = d ∧ (sync s t d).2 = d := by
  refine ⟨fun d t u fix c ht ho h hl => validate_after_check ht ho h hl u,
    fun d t u c ht ho h hl => ?_, fun d t => ?_, fun d t fix v h hv => ?_⟩
  · obtain ⟨hresult, hdisk⟩ := sync_eq_check (s := s) (d := d) (t := t)
    rw [hdisk] at hl ⊢
    exact validate_after_check ht ho (hresult ▸ h) hl u
  · cases hv : (validate s t d).result with
    | error e => exact (check_of_error hv).2
    | ok v => exact (check_of_idle hv (.inr rfl)).2
  · rw [sync_eq_check.2]
    exact ⟨(check_of_idle h (.inl hv)).2, (check_of_idle h (.inl hv)).2⟩

/-- Where the output is missing, a check with a fix and a sync make it, and a further sync has nothing to
do. -/
theorem check_reports_state_new_link :
    (∃ c v, (check linkedSettings (linkedTime 5) true (linkedDisk "../out/index.ts")).1.result = .ok c
      ∧ c.ok = true
      ∧ (validate linkedSettings (linkedTime 6)
        (check linkedSettings (linkedTime 5) true (linkedDisk "../out/index.ts")).2).result = .ok v
      ∧ v.isValid = c.ok)
    ∧ (∃ c v, (sync linkedSettings (linkedTime 5) (linkedDisk "../out/index.ts")).1.result = .ok c
      ∧ (validate linkedSettings (linkedTime 6)
        (sync linkedSettings (linkedTime 5) (linkedDisk "../out/index.ts")).2).result = .ok v
      ∧ v.isValid = c.ok)
    ∧ (sync linkedSettings (linkedTime 7) (linkedRun "../out/index.ts").2).2
      = (linkedRun "../out/index.ts").2 := by
  have ht : IsTree (linkedDisk "../out/index.ts") := by decide
  have ho := not_isLink_linkedDisk "../out/index.ts"
  obtain ⟨⟨g, hg, hw⟩, -⟩ := linkedRun_written
  obtain ⟨_, hmissing, hinvalid⟩ := validate_linkedDisk
  obtain ⟨v, hv, hsame⟩ := validate_time (linkedTime 5) hmissing
  obtain ⟨hcheck, hdisk⟩ := check_of_invalid hv (hsame.trans hinvalid)
  rw [← linkedRun, hg, Except.map] at hcheck
  rw [← linkedRun] at hdisk
  obtain ⟨hsync, hdisk'⟩ := sync_eq_check (s := linkedSettings) (d := linkedDisk "../out/index.ts")
    (t := linkedTime 5)
  have hl := linksStay_linkedRun
  obtain ⟨hchecked, hsynced, -, hidle⟩ := check_reports_state linkedSettings
  obtain ⟨w, hvalid, hok⟩ := hchecked _ _ (linkedTime 6) _ _ ht ho hcheck (hdisk ▸ hl)
  obtain ⟨w', hvalid', hok'⟩ := hsynced _ _ (linkedTime 6) _ ht ho (hsync.trans hcheck)
    ((hdisk'.trans hdisk) ▸ hl)
  have hafter := validate_after_generate ht ho hg hw hl (linkedTime 7)
  exact ⟨⟨_, w, hcheck, by simp [Checked.ok, hw], hvalid, hok⟩,
    ⟨_, w', hsync.trans hcheck, hvalid', hok'⟩, (hidle _ (linkedTime 7) true _ hafter rfl).2⟩

/-! ## A link to another table -/

/-- A disk with a link that leads nowhere, and from there to a module with another table once there is a
folder for the output. -/
def otherDisk : Disk :=
  (linkedDisk "../out/../real/b.ts").put ["ws", "real", "b.ts"]
    (.file "export const b = pgTable(1);\n".toUTF8 0)

theorem valid_linkedSettings : linkedSettings.Valid := by
  refine ⟨?_, by simp [linkedSettings], by simp [linkedSettings], ?_⟩
  · exact List.forall_mem_singleton.2 Settings.isPattern_any
  · show Settings.isAggregateName "dbSchema".toList = true
    decide

/-- The tables before and after the link leads somewhere. -/
def ownTable : Table :=
  ⟨"a", ⟨.slash, ["ws", "schema", "a.ts"]⟩, "../schema/a"⟩

def otherTable : Table :=
  ⟨"b", ⟨.slash, ["ws", "schema", "l.ts"]⟩, "../schema/l"⟩

theorem isTree_otherDisk : IsTree otherDisk := by decide

theorem not_isLink_otherDisk : ¬ Output.IsLink otherDisk linkedSettings.outputFile := by decide

/-- A generation from the disk takes the table of the link for none, and a validation afterwards does
not. -/
theorem generate_otherDisk :
    ∃ g, (generate linkedSettings (linkedTime 5) otherDisk).1.result = .ok g ∧ g.written = true
      ∧ ∃ v, (validate linkedSettings (linkedTime 6)
        (generate linkedSettings (linkedTime 5) otherDisk).2).result = .ok v ∧ v.isValid = false := by
  obtain ⟨g, hg, hw⟩ : ∃ g, (generate linkedSettings (linkedTime 5) otherDisk).1.result = .ok g
      ∧ g.written = true := exists_ok_of_map (by decide +kernel)
  have hbefore : (Collection.tables linkedSettings linkedSettings.outputFolder otherDisk).result
      = .ok [ownTable] := eq_ok_of_toOption (by decide +kernel)
  have hafter : (Collection.tables linkedSettings linkedSettings.outputFolder
      (generate linkedSettings (linkedTime 5) otherDisk).2).result = .ok [ownTable, otherTable] :=
    eq_ok_of_toOption (by decide +kernel)
  have hown : ownTable.Legible := Table.legible_of_isWordText _ (by decide) (by decide)
  have hother : otherTable.Legible := Table.legible_of_isWordText _ (by decide) (by decide)
  refine ⟨g, hg, hw, ?_⟩
  obtain ⟨-, hn, -⟩ | ⟨a, previous, ha, hp, hwrite, -⟩ := generate_cases hg
  · rw [hn] at hw
    cases hw
  · have hwritten := Output.write_written isTree_otherDisk (possible_of_aggregate ha)
      not_isLink_otherDisk hwrite
    rw [← (generate_some ha hp).2] at hwritten
    obtain rfl := Option.some.inj (Except.ok.inj (ha.symm.trans (aggregate_of_tables hbefore rfl)))
    have hemit : (Aggregate.emit linkedSettings (linkedTime 5) [ownTable]).result = .ok _ := rfl
    exact validate_of_symbols_ne valid_linkedSettings (by simp [hown, hother]) (by simp [hown]) hafter
      rfl hemit hwritten.read? (by simp)

/-- A check with a fix, and a sync, report a success, but what they leave is not valid: the link leads to
a module with a table that is not in the output. -/
theorem check_misreports_old_link :
    IsTree otherDisk ∧ ¬ Output.IsLink otherDisk linkedSettings.outputFile
      ∧ (∃ c v, (check linkedSettings (linkedTime 5) true otherDisk).1.result = .ok c ∧ c.ok = true
        ∧ (validate linkedSettings (linkedTime 6)
          (check linkedSettings (linkedTime 5) true otherDisk).2).result = .ok v ∧ v.isValid = false)
      ∧ ∃ c v, (sync linkedSettings (linkedTime 5) otherDisk).1.result = .ok c ∧ c.ok = true
        ∧ (validate linkedSettings (linkedTime 6)
          (sync linkedSettings (linkedTime 5) otherDisk).2).result = .ok v ∧ v.isValid = false := by
  obtain ⟨g, hg, hw, v, hv, hinvalid⟩ := generate_otherDisk
  obtain ⟨before, hbefore, hmissing⟩ : ∃ v, (validate linkedSettings (linkedTime 5) otherDisk).result
      = .ok v ∧ v.isValid = false := exists_ok_of_map (by decide +kernel)
  obtain ⟨hcheck, hdisk⟩ := check_of_invalid hbefore hmissing
  obtain ⟨hsync, hdisk'⟩ := sync_eq_check (s := linkedSettings) (d := otherDisk) (t := linkedTime 5)
  rw [hsync, hdisk', hcheck, hdisk, hg, Except.map]
  have hok : Checked.ok ⟨before, some g⟩ = true := by simp [Checked.ok, hw]
  exact ⟨isTree_otherDisk, not_isLink_otherDisk, ⟨_, v, rfl, hok, hv, hinvalid⟩,
    _, v, rfl, hok, hv, hinvalid⟩

end TableRoster
