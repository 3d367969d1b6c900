import TableRoster.Proofs.Output
import TableRoster.Proofs.Scan.Growth

/-! # The modules of a run, on a disk and on one that has grown -/

namespace TableRoster.Scan

open Disk

variable {d d' : Disk} {s : Settings} {output file : Path} {files : List Path} {q : Place}
  {content : String}

/-- A source file is a module of the run, if its real path can be told. -/
def keeps (d : Disk) (s : Settings) (output file : Path) : Bool :=
  match isOutput d output file with
  | .ok b => !b && !Glob.isExcluded s.schemaFolder file s.excludeGlobs
  | .error _ => false

theorem isCandidate_of_keeps (h : keeps d s output file = true) : IsCandidate s file := by
  unfold keeps at h
  split at h
  · rename_i b hb
    obtain ⟨hout, hx⟩ := Bool.and_eq_true_iff.1 h
    refine ⟨fun hname => ?_, by simpa using hx⟩
    rw [isOutput, if_pos hname] at hb
    cases hb
    cases hout
  · cases h

theorem isModule_result (h : ∃ b, isOutput d output file = .ok b) :
    (isModule d s output file).result = .ok (keeps d s output file) := by
  obtain ⟨b, h⟩ := h
  simp only [isModule, keeps, h, Telling.bind_result, Telling.ofCrash, Telling.pure_result]
  cases b with
  | true => rfl
  | false =>
    cases hx : Glob.isExcluded s.schemaFolder file s.excludeGlobs with
    | true => simp [Except.bind, Telling.bind_result, Telling.tell]
    | false => simp [Except.bind]

theorem modulesAmong_result (h : ∀ f ∈ files, ∃ b, isOutput d output f = .ok b) :
    (modulesAmong d s output files).result = .ok (files.filter (keeps d s output)) := by
  induction files with
  | nil => rfl
  | cons f fs ih =>
    obtain ⟨hf, hfs⟩ := List.forall_mem_cons.1 h
    simp only [modulesAmong, Telling.bind_result, isModule_result hf, ih hfs, Telling.pure_result,
      Except.bind, List.filter_cons]

/-! ## Files that lead somewhere -/

theorem isOutput_of_leads (ht : IsTree d) {u : Nat} (h : Leads d (d.startOf file) file.parts u q)
    (hf : d.IsFileAt q) :
    isOutput d output file
      = .ok (decide (file.name = reservedName ∨ (⟨.slash, q⟩ : Path) = output)) := by
  obtain ⟨bytes, time, hn⟩ := hf
  unfold isOutput
  rw [h.realPath ht]
  split <;> simp_all [Except.map]

theorem modules_result (ht : IsTree d) (hs : d.isFolder s.schemaFolder = true)
    (ho : d.realPath s.outputFile = .ok output) :
    (modules s d).result
      = .ok ((filesBelow d (bound d) s.schemaFolder).filter (keeps d s output)) := by
  have hkeeps : ∀ f ∈ filesBelow d (bound d) s.schemaFolder, ∃ b, isOutput d output f = .ok b := by
    intro f hf
    obtain ⟨u, q, bytes, time, hq, -, hn⟩ := leads_of_mem_filesBelow ht hf
    exact ⟨_, isOutput_of_leads ht hq ⟨bytes, time, hn⟩⟩
  simp only [modules, hs, Bool.not_true, Bool.false_eq_true, ↓reduceIte, ho, sourcesBelow_eq hs,
    Telling.bind_result, Telling.ofCrash, Telling.ofFailure, Telling.pure_result, Except.bind,
    modulesAmong_result hkeeps, Telling.tell]

/-- Modules that are found are found in a folder, and the aggregate module has a real path. -/
theorem of_modules_result {found : List Path} (h : (modules s d).result = .ok found) :
    d.isFolder s.schemaFolder = true ∧ ∃ output, d.realPath s.outputFile = .ok output := by
  unfold modules at h
  split at h
  · cases h
  · rename_i hs
    refine ⟨by simpa using hs, ?_⟩
    cases ho : d.realPath s.outputFile with
    | ok output => exact ⟨output, rfl⟩
    | error c =>
      rw [ho, Telling.bind_result] at h
      cases h

/-! ## Growth that a search does not notice -/

/-- What leads to a place is no module. -/
def Unseen (s : Settings) (output : Path) (d : Disk) (out : Place) : Prop :=
  ∀ f u, Leads d (d.startOf f) f.parts u out → keeps d s output f = false

theorem unseen_of_none (ht : IsTree d) (h : d.node? q = none) : Unseen s output d q := by
  intro f u hf
  exact absurd h (hf.node (by simp [ht.startOf]) (by simp))

/-- What leads to the aggregate module is no module. -/
theorem unseen_output (ht : IsTree d) (h : d.node? q = none ∨ d.IsFileAt q) :
    Unseen s ⟨.slash, q⟩ d q := by
  obtain h | h := h
  · exact unseen_of_none ht h
  · intro f u hf
    rw [keeps, isOutput_of_leads ht hf h]
    simp

/-- A disk has grown, by a file at a place at most that no module leads to before or after. Links and the
real path of the output are as they were. -/
structure Unnoticed (s : Settings) (out : Place) (d d' : Disk) : Prop where
  tree : IsTree d
  tree' : IsTree d'
  grown : Grown out d d'
  links : LinksStay s d d'
  real : ∀ output, d.realPath s.outputFile = .ok output → d'.realPath s.outputFile = .ok output
  unseen : ∀ output, d.realPath s.outputFile = .ok output →
    Unseen s output d out ∧ Unseen s output d' out

namespace Unnoticed

variable (h : Unnoticed s q d d')

include h

theorem modules_eq (hs : d.isFolder s.schemaFolder = true) (ho : d.realPath s.outputFile = .ok output) :
    (modules s d').result = (modules s d).result := by
  obtain ⟨-, hk⟩ := h.unseen output ho
  obtain ⟨u, p, hp, hu, hf⟩ := (isFolder_iff h.tree).1 hs
  rw [modules_result h.tree hs ho,
    modules_result h.tree' (h.grown.isFolder h.tree h.tree' hs) (h.real output ho),
    filter_filesBelow h.tree' hk h.tree h.grown (fun _ => isCandidate_of_keeps) h.links .start hp hu hf
      (Nat.le_add_right ..) (Nat.le_add_right ..)]
  congr 1
  refine List.filter_congr fun f hmem => ?_
  obtain ⟨v, q, bytes, t, hq, -, hn⟩ := leads_of_mem_filesBelow h.tree hmem
  have hn' : d'.IsFileAt q := (h.grown.isFileAt_iff (by simp [hn])).2 ⟨bytes, t, hn⟩
  rw [keeps, keeps, isOutput_of_leads h.tree hq ⟨bytes, t, hn⟩,
    isOutput_of_leads h.tree' (h.grown.leads_path hq) hn']

/-- The same modules are found. -/
theorem modules {found : List Path} (hm : (modules s d).result = .ok found) :
    (Scan.modules s d').result = .ok found := by
  obtain ⟨hs, output, ho⟩ := of_modules_result hm
  rw [h.modules_eq hs ho, hm]

/-- The modules of a run stay as they are. -/
theorem stat {found : List Path} (hm : (Scan.modules s d).result = .ok found) (hf : file ∈ found) :
    d'.stat file = d.stat file := by
  obtain ⟨hs, output, ho⟩ := of_modules_result hm
  obtain ⟨hk, -⟩ := h.unseen output ho
  rw [modules_result h.tree hs ho] at hm
  cases hm
  obtain ⟨hmem, hkeep⟩ := List.mem_filter.1 hf
  obtain ⟨u, r, bytes, time, hr, hu, hn⟩ := leads_of_mem_filesBelow h.tree hmem
  have hne : r ≠ q := by
    rintro rfl
    simp [hk _ _ hr] at hkeep
  have hstat : d.stat file = .ok (r, .file bytes time) := (stat_eq_ok_iff h.tree).2 ⟨u, hr, hu, hn⟩
  have hstat' : d'.stat file = .ok (r, .file bytes time) :=
    (stat_eq_ok_iff h.tree').2 ⟨u, h.grown.leads_path hr, hu, h.grown.node_of_ne hn hne⟩
  rw [hstat, hstat']

theorem text {found : List Path} (hm : (Scan.modules s d).result = .ok found) (hf : file ∈ found) :
    d'.text file = d.text file := by
  simp only [Disk.text, Disk.bytes, h.stat hm hf]

end Unnoticed

/-- A search does not notice the output that was written, unless a link leads to something old now. -/
theorem unnoticed_of_written (hw : Output.Written s.outputFile content d d') (ht : IsTree d)
    (hl : LinksStay s d d') : Unnoticed s (Output.place d s.outputFile) d d' := by
  obtain ⟨u, hq, hu⟩ := hw.leads
  obtain ⟨time, hf⟩ := hw.file
  have hout : ∀ output, d.realPath s.outputFile = .ok output →
      output = ⟨.slash, Output.place d s.outputFile⟩ := by
    intro output ho
    unfold realPath at ho
    split at ho
    · cases ho
    · dsimp only at ho
      rw [← hw.grown.resolvePlace_eq, hq.resolvePlace hw.tree] at ho
      split at ho <;> cases ho
      rfl
  refine ⟨ht, hw.tree, hw.grown, hl, fun output ho => hout output ho ▸ hq.realPath hw.tree, ?_⟩
  intro output ho
  obtain rfl := hout output ho
  refine ⟨unseen_output ht ?_, unseen_output hw.tree (.inr ⟨_, time, hf⟩)⟩
  obtain h | ⟨h, -⟩ | ⟨-, -, h⟩ := hw.grown.node (Output.place d s.outputFile)
  · exact .inr ⟨_, time, h ▸ hf⟩
  · exact .inl h
  · exact h

end TableRoster.Scan
