import TableRoster.Collection
import TableRoster.Proofs.Scan.Modules

/-! # The tables of a disk, and of one that has grown -/

namespace TableRoster.Collection

open Disk

variable {d d' : Disk} {s : Settings} {folder : Path} {files : List Path} {time time' : Timestamp}
  {a : Option Aggregate}

/-! ## Results of parts -/

theorem load_congr {file : Path} (h : d'.text file = d.text file) : load d' file = load d file := by
  simp only [load, h]

theorem tablesIn_congr (h : ∀ f ∈ files, d'.text f = d.text f) :
    (tablesIn s d' files) = (tablesIn s d files) := by
  induction files with
  | nil => rfl
  | cons f fs ih =>
    obtain ⟨hf, hfs⟩ := List.forall_mem_cons.1 h
    simp only [tablesIn, load_congr hf, ih hfs]

theorem tables_result : (tables s folder d).result =
    (Scan.modules s d).result.bind fun files => (tablesIn s d files).result.bind fun ts =>
      .ok (ts.map (Table.resolve d.here s.overrides folder)) := by
  simp only [tables, Telling.bind_result]
  rfl

theorem aggregate_result : (aggregate s folder time d).result =
    (tables s folder d).result.bind fun ts =>
      if ts = [] then .ok none else (Aggregate.emit s time ts).result.bind fun a => .ok (some a) := by
  simp only [aggregate, Telling.bind_result]
  congr 1
  funext ts
  split
  · rfl
  · rw [Telling.bind_result]
    rfl

/-! ## Another time -/

theorem emit_result (time time' : Timestamp) (ts : List Table) : (Aggregate.emit s time' ts).result
    = (Aggregate.emit s time ts).result.map fun a => { a with time := time' } := by
  simp only [Aggregate.emit]
  split
  · rfl
  · split
    · rfl
    · split
      · rfl
      · split <;> rfl

/-- Tables make the same aggregate at another time, apart from that time. -/
theorem aggregate_time (time time' : Timestamp) : (aggregate s folder time' d).result
    = (aggregate s folder time d).result.map (Option.map fun a => { a with time := time' }) := by
  rw [aggregate_result, aggregate_result]
  cases (tables s folder d).result with
  | error e => rfl
  | ok ts =>
    simp only [Except.bind]
    split
    · rfl
    · rw [emit_result time]
      cases (Aggregate.emit s time ts).result <;> rfl

/-! ## On a disk that has grown -/

theorem modules_of_aggregate (h : (aggregate s folder time d).result = .ok a) :
    ∃ found, (Scan.modules s d).result = .ok found := by
  rw [aggregate_result, tables_result] at h
  cases hm : (Scan.modules s d).result with
  | error e => simp [hm, Except.bind] at h
  | ok found => exact ⟨found, rfl⟩

/-- Growth that a search does not notice keeps what the tables make, or why they make nothing. -/
theorem aggregate_eq {out : Place} {output : Path} (hd : Scan.Unnoticed s out d d')
    (hs : d.isFolder s.schemaFolder = true) (ho : d.realPath s.outputFile = .ok output) :
    (aggregate s folder time d').result = (aggregate s folder time d).result := by
  have htables : (tables s folder d').result = (tables s folder d).result := by
    rw [tables_result, tables_result, hd.modules_eq hs ho]
    cases hm : (Scan.modules s d).result with
    | error e => rfl
    | ok found =>
      simp only [Except.bind, tablesIn_congr fun f hf => hd.text hm hf, hd.grown.here]
  rw [aggregate_result, aggregate_result, htables]

theorem aggregate_unnoticed {out : Place} (hd : Scan.Unnoticed s out d d')
    (h : (aggregate s folder time d).result = .ok a) : (aggregate s folder time d').result = .ok a := by
  obtain ⟨found, hm⟩ := modules_of_aggregate h
  obtain ⟨hs, output, ho⟩ := Scan.of_modules_result hm
  rw [aggregate_eq hd hs ho, h]

end TableRoster.Collection
