import TableRoster.Proofs.Disk.Leads
import TableRoster.Proofs.Disk.Walk
import TableRoster.Scan

/-! # The source files below a folder

The search of a folder that is there never fails, and all it finds are files. -/

namespace TableRoster.Scan

open Disk

variable {d : Disk} {below : Path → List Path} {folder path file entry : Path} {entries : List Path}
  {fuel u : Nat} {q : Place}

/-- What one entry of a folder adds to the source files. -/
def filesOf (d : Disk) (below : Path → List Path) (entry : Path) : List Path :=
  if d.isFolder entry then if entry.name ∈ skippedFolders then [] else below entry
  else if d.isFile entry && isSourceName entry.name then [d.absolute entry]
  else []

/-- The source files below a folder, entry by entry. -/
def filesBelow (d : Disk) : (fuel : Nat) → Path → List Path
  | 0, _ => []
  | fuel + 1, folder =>
    ((d.childrenOf folder).toOption.getD []).flatMap (filesOf d (filesBelow d fuel))

theorem sourcesAmong_eq {search : Path → Except Failure (List Path)}
    (h : ∀ e ∈ entries, d.isFolder e = true → search e = .ok (below e)) :
    sourcesAmong d search entries = .ok (entries.flatMap (filesOf d below)) := by
  induction entries with
  | nil => rfl
  | cons e es ih =>
    obtain ⟨he, hes⟩ := List.forall_mem_cons.1 h
    have ih := ih hes
    unfold sourcesAmong
    rw [List.flatMap_cons, filesOf]
    split
    · rename_i hfolder
      split
      · exact ih
      · rw [he hfolder, ih]
        rfl
    · split
      · rw [ih]
        rfl
      · exact ih

theorem childrenOf_of_isFolder (h : d.isFolder folder = true) :
    ∃ p, d.stat folder = .ok (p, .folder)
      ∧ d.childrenOf folder = .ok (Path.sort ((d.namesIn p).map folder.child)) := by
  unfold isFolder at h
  unfold childrenOf
  split at h
  · rename_i p hs
    exact ⟨p, hs, by rw [hs]⟩
  · cases h

theorem sourcesBelow_eq (h : d.isFolder folder = true) :
    sourcesBelow d fuel folder = .ok (filesBelow d fuel folder) := by
  induction fuel generalizing folder with
  | zero => rfl
  | succ fuel ih =>
    obtain ⟨p, -, hc⟩ := childrenOf_of_isFolder h
    simp only [sourcesBelow, filesBelow, hc]
    exact sourcesAmong_eq fun e _ he => ih he

/-! ## Files -/

/-- The path from the root leads to the same place. -/
theorem leads_absolute (ht : IsTree d) (h : Leads d (d.startOf path) path.parts u q) :
    Leads d (d.startOf (d.absolute path)) (d.absolute path).parts u q := by
  unfold absolute
  split
  · exact h
  · rename_i hr
    rw [startOf, if_neg hr] at h
    have := (Leads.self ht ht.here (by simp)).append h
    rwa [Nat.zero_add] at this

theorem mem_filesOf (h : file ∈ filesOf d below entry) :
    (file ∈ below entry) ∨ d.isFile entry = true ∧ file = d.absolute entry := by
  unfold filesOf at h
  split at h
  · split at h
    · cases h
    · exact .inl h
  · split at h
    · rename_i hf
      exact .inr ⟨(Bool.and_eq_true_iff.1 hf).1, List.mem_singleton.1 h⟩
    · cases h

theorem leads_of_mem_filesBelow (ht : IsTree d) (h : file ∈ filesBelow d fuel folder) :
    ∃ u q bytes time, Leads d (d.startOf file) file.parts u q ∧ u ≤ linkLimit
      ∧ d.node? q = some (.file bytes time) := by
  induction fuel generalizing folder with
  | zero => cases h
  | succ fuel ih =>
    obtain ⟨entry, -, h⟩ := List.mem_flatMap.1 h
    obtain h | ⟨hf, rfl⟩ := mem_filesOf h
    · exact ih h
    · obtain ⟨u, q, bytes, time, hq, hu, hn⟩ := (isFile_iff ht).1 hf
      exact ⟨u, q, bytes, time, leads_absolute ht hq, hu, hn⟩

end TableRoster.Scan
