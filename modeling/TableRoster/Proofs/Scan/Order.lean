import TableRoster.Proofs.Disk.Listing
import TableRoster.Proofs.Scan.Modules
import TableRoster.Proofs.Scan.Rewrite

/-! # The modules of a tree without links

A search goes into every folder that it does not pass over, so it finds every source file there is. Folder
by folder it goes by names, so it finds files in the order of all names that lead to them, and it does not
matter in which order a folder lists its entries. -/

namespace TableRoster.Scan

open Disk

variable {d d' : Disk} {p q : Place} {folder file : Path} {name : String} {names : List String}
  {u fuel : Nat} {below : Path → List Path} {s : Settings} {found : List Path} {n : Node}

/-! ## Entries -/

/-- Without links, what is below a place is reached by its names. -/
theorem leads_below (ht : IsTree d) (hl : d.linkCount = 0) (hn : d.node? (p ++ names) = some n) :
    Leads d p names 0 (p ++ names) := by
  by_cases hne : names = []
  · subst hne
    simpa using Leads.here
  · have hp := Leads.self ht (ht.folder_of_append hne hn) (by simp)
    have hself := Leads.self ht hn fun t he => link?_eq_none_iff.1 (link?_eq_none hl _) t (he ▸ hn)
    obtain ⟨v, w, m, hv, hw, hsum⟩ := hself.split
    obtain ⟨rfl, rfl⟩ := hp.unique hv
    obtain rfl : w = 0 := by omega
    exact hw

/-- Names lead from a place to a source file, and through no folder that a search passes over. -/
structure IsSource (d : Disk) (p : Place) (names : List String) : Prop where
  file : d.IsFileAt (p ++ names)
  name : isSourceName (names.getLast?.getD "") = true
  folders : ∀ x ∈ names.dropLast, x ∉ skippedFolders

theorem isSource_cons : IsSource d p (name :: names) ↔
    names = [] ∧ d.IsFileAt (p ++ [name]) ∧ isSourceName name = true
      ∨ names ≠ [] ∧ name ∉ skippedFolders ∧ IsSource d (p ++ [name]) names := by
  cases names with
  | nil =>
    constructor
    · intro h
      exact .inl ⟨rfl, h.file, h.name⟩
    · rintro (⟨-, hf, hn⟩ | ⟨hne, -⟩)
      · exact ⟨hf, hn, by simp⟩
      · exact absurd rfl hne
  | cons x xs =>
    have happ : p ++ name :: x :: xs = p ++ [name] ++ x :: xs := by simp
    constructor
    · intro h
      obtain ⟨hskip, hfolders⟩ := List.forall_mem_cons.1 h.folders
      exact .inr ⟨by simp, hskip, happ ▸ h.file, by simpa using h.name, hfolders⟩
    · rintro (⟨hne, -⟩ | ⟨-, hskip, h⟩)
      · cases hne
      · exact ⟨happ ▸ h.file, by simpa using h.name, List.forall_mem_cons.2 ⟨hskip, h.folders⟩⟩

theorem isSource_cons_of_folder (hn : d.node? (p ++ [name]) = some .folder) :
    IsSource d p (name :: names) ↔ name ∉ skippedFolders ∧ IsSource d (p ++ [name]) names := by
  rw [isSource_cons]
  constructor
  · rintro (⟨-, hf, -⟩ | ⟨-, h⟩)
    · exact absurd hn hf.ne_folder
    · exact h
  · rintro ⟨hskip, h⟩
    refine .inr ⟨?_, hskip, h⟩
    rintro rfl
    exact h.file.ne_folder (by simpa using hn)

theorem isSource_cons_of_file (ht : IsTree d) (hf : d.IsFileAt (p ++ [name])) :
    IsSource d p (name :: names) ↔ names = [] ∧ isSourceName name = true := by
  rw [isSource_cons]
  constructor
  · rintro (⟨rfl, -, hname⟩ | ⟨hne, -, h⟩)
    · exact ⟨rfl, hname⟩
    · obtain ⟨bytes, time, hn⟩ := h.file
      exact absurd (ht.folder_of_append hne hn) hf.ne_folder
  · rintro ⟨rfl, hname⟩
    exact .inl ⟨rfl, hf, hname⟩

/-- The first name leads to something. -/
theorem IsSource.node_of_cons (h : IsSource d p (name :: names)) (ht : IsTree d) :
    ∃ n, d.node? (p ++ [name]) = some n := by
  obtain ⟨rfl, ⟨bytes, time, hn⟩, -⟩ | ⟨hne, -, hbelow⟩ := isSource_cons.1 h
  · exact ⟨_, hn⟩
  · obtain ⟨bytes, time, hn⟩ := hbelow.file
    exact ⟨_, ht.folder_of_append hne hn⟩

section

variable (ht : IsTree d) (hl : d.linkCount = 0) (habs : folder.isAbsolute = true)
  (hp : Leads d (d.startOf folder) folder.parts u p) (hu : u ≤ linkLimit)

include ht hl hp hu

theorem filesOf_folder (hn : d.node? (p ++ [name]) = some .folder) :
    filesOf d below (folder.child name)
      = if name ∈ skippedFolders then [] else below (folder.child name) := by
  have hfolder : d.isFolder (folder.child name) = true :=
    (isFolder_child_of_leads ht hp (leads_below ht hl hn)).2 ⟨hu, hn⟩
  rw [filesOf, if_pos hfolder, Path.name_child]

include habs

theorem filesOf_file (hf : d.IsFileAt (p ++ [name])) :
    filesOf d below (folder.child name)
      = if isSourceName name = true then [folder.child name] else [] := by
  obtain ⟨bytes, time, hn⟩ := id hf
  have hlead := leads_below ht hl hn
  have hfolder : ¬ d.isFolder (folder.child name) = true := fun h =>
    hf.ne_folder ((isFolder_child_of_leads ht hp hlead).1 h).2
  have hfile : d.isFile (folder.child name) = true := (isFile_child_of_leads ht hp hlead).2 ⟨hu, hf⟩
  have hpath : d.absolute (folder.child name) = folder.child name := if_pos habs
  rw [filesOf, if_neg hfolder, hfile, Path.name_child, Bool.true_and, hpath]

/-! ## All files -/

/-- The files of an entry are the source files that names lead to from it, if these are the ones that are
found below it. -/
theorem mem_filesOf_iff (hn : d.node? (p ++ [name]) = some n)
    (hbelow : n = .folder → (file ∈ below (folder.child name) ↔ ∃ names, IsSource d (p ++ [name]) names
      ∧ file = ⟨(folder.child name).root, (folder.child name).parts ++ names⟩)) :
    file ∈ filesOf d below (folder.child name) ↔ ∃ names, IsSource d p (name :: names)
      ∧ file = ⟨folder.root, folder.parts ++ name :: names⟩ := by
  cases n with
  | folder =>
    rw [filesOf_folder ht hl hp hu hn]
    split
    · rename_i hskip
      simp [isSource_cons_of_folder hn, hskip]
    · rename_i hskip
      rw [hbelow rfl]
      simp [isSource_cons_of_folder hn, hskip, Path.child]
  | file bytes time =>
    have hfile : d.IsFileAt (p ++ [name]) := ⟨bytes, time, hn⟩
    rw [filesOf_file ht hl habs hp hu hfile]
    split
    · rename_i hname
      simp [isSource_cons_of_file ht hfile, hname, Path.child]
    · rename_i hname
      simp [isSource_cons_of_file ht hfile, hname]
  | link t => exact absurd hn (link?_eq_none_iff.1 (link?_eq_none hl _) t)

/-- The files that are found are the source files that names lead to. -/
theorem mem_filesBelow_iff (hf : d.node? p = some .folder) (hfuel : d.depth < fuel + p.length) :
    file ∈ filesBelow d fuel folder ↔
      ∃ names, IsSource d p names ∧ file = ⟨folder.root, folder.parts ++ names⟩ := by
  induction fuel generalizing folder p with
  | zero =>
    have := length_le_depth (d := d) (p := p) (by simp [hf])
    omega
  | succ fuel ih =>
    have hentry : ∀ {name n}, d.node? (p ++ [name]) = some n →
        (file ∈ filesOf d (filesBelow d fuel) (folder.child name) ↔ ∃ names,
          IsSource d p (name :: names) ∧ file = ⟨folder.root, folder.parts ++ name :: names⟩) := by
      intro name n hn
      have hlead := (leads_child_iff hp).2 ⟨0, leads_below ht hl hn, rfl⟩
      have hlt : d.depth < fuel + (p ++ [name]).length := by
        simp only [List.length_append, List.length_singleton]
        omega
      exact mem_filesOf_iff ht hl habs hp hu hn fun hfolder => ih habs hlead (hfolder ▸ hn) hlt
    simp only [filesBelow, childrenOf_of_leads ht hp hu hf, List.mem_flatMap,
      (Path.sort_perm _).mem_iff, List.mem_map, exists_exists_and_eq_and]
    constructor
    · rintro ⟨name, hname, hmem⟩
      obtain ⟨n, hn⟩ := ht.mem_namesIn.1 hname
      obtain ⟨names, hsource⟩ := (hentry hn).1 hmem
      exact ⟨name :: names, hsource⟩
    · rintro ⟨names, hsource, hfile⟩
      cases names with
      | nil => exact absurd hf (by simpa using hsource.file.ne_folder)
      | cons name names =>
        obtain ⟨n, hn⟩ := hsource.node_of_cons ht
        exact ⟨name, ht.mem_namesIn.2 ⟨_, hn⟩, (hentry hn).2 ⟨names, hsource, hfile⟩⟩

/-! ## The order of the files -/

/-- The files of an entry are in order, if those that are found below it are. -/
theorem filesOf_pairwise (hn : d.node? (p ++ [name]) = some n)
    (hbelow : n = .folder → (below (folder.child name)).Pairwise fun a b => a.parts < b.parts) :
    (filesOf d below (folder.child name)).Pairwise fun a b => a.parts < b.parts := by
  cases n with
  | folder =>
    rw [filesOf_folder ht hl hp hu hn]
    split
    · exact .nil
    · exact hbelow rfl
  | file bytes time =>
    rw [filesOf_file ht hl habs hp hu ⟨bytes, time, hn⟩]
    split
    · exact List.pairwise_singleton _ _
    · exact .nil
  | link t => exact absurd hn (link?_eq_none_iff.1 (link?_eq_none hl _) t)

/-- The files come in the order of the names that lead to them. -/
theorem filesBelow_pairwise (hf : d.node? p = some .folder) (hfuel : d.depth < fuel + p.length) :
    (filesBelow d fuel folder).Pairwise fun a b => a.parts < b.parts := by
  induction fuel generalizing folder p with
  | zero => exact .nil
  | succ fuel ih =>
    have hentry : ∀ name ∈ d.namesIn p,
        (filesOf d (filesBelow d fuel) (folder.child name)).Pairwise (fun a b => a.parts < b.parts)
          ∧ ∀ file ∈ filesOf d (filesBelow d fuel) (folder.child name),
            ∃ names, file.parts = folder.parts ++ name :: names := by
      intro name hname
      obtain ⟨n, hn⟩ := ht.mem_namesIn.1 hname
      have hlead := (leads_child_iff hp).2 ⟨0, leads_below ht hl hn, rfl⟩
      have hlt : d.depth < fuel + (p ++ [name]).length := by
        simp only [List.length_append, List.length_singleton]
        omega
      refine ⟨filesOf_pairwise ht hl habs hp hu hn fun hfolder => ih habs hlead (hfolder ▸ hn) hlt,
        fun file hfile => ?_⟩
      obtain ⟨names, -, rfl⟩ := (mem_filesOf_iff ht hl habs hp hu hn fun hfolder =>
        mem_filesBelow_iff ht hl habs hlead hu (hfolder ▸ hn) hlt).1 hfile
      exact ⟨names, rfl⟩
    obtain ⟨sorted, hperm, hsorted, hchildren⟩ := Path.sort_children_eq folder (ht.namesIn_nodup p)
    rw [filesBelow, childrenOf_of_leads ht hp hu hf, hchildren, List.flatMap_map, List.pairwise_flatMap]
    refine ⟨fun name hname => (hentry name (hperm.mem_iff.1 hname)).1, ?_⟩
    -- files below different entries differ first in the names of these
    refine hsorted.imp_of_mem fun {a b} ha hb hlt x hx y hy => ?_
    obtain ⟨xs, hxs⟩ := (hentry a (hperm.mem_iff.1 ha)).2 x hx
    obtain ⟨ys, hys⟩ := (hentry b (hperm.mem_iff.1 hb)).2 y hy
    rw [hxs, hys]
    exact List.append_left_lt (List.cons_lt_cons_iff.2 (.inl hlt))

end

/-! ## Modules -/

/-- The modules of a run are found the same, in whatever order the entries are listed. -/
theorem modules_relisted (s : Settings) (ht : IsTree d) (h : Relisted d d') :
    modules s d' = modules s d := by
  have hfolder : d'.isFolder = d.isFolder := funext ((h.alike ht).isFolder h.here)
  have hfile : d'.isFile = d.isFile := funext ((h.alike ht).isFile h.here)
  have habs : d'.absolute = d.absolute := funext ((h.grown ht []).absolute_eq)
  exact modules_congr s hfolder hfile (h.childrenOf ht) (h.realPath ht) habs h.depth

/-- A file below the schema folder is kept if it has not the name of an aggregate module, is not the
output, and is not excluded. -/
theorem keeps_iff (ht : IsTree d) {output : Path} (h : Leads d (d.startOf file) file.parts u q)
    (hf : d.IsFileAt q) : keeps d s output file = true ↔ file.name ≠ reservedName
      ∧ (⟨.slash, q⟩ : Path) ≠ output ∧ Glob.isExcluded s.schemaFolder file s.excludeGlobs = false := by
  rw [keeps, isOutput_of_leads ht h hf]
  simp [and_assoc]

/-- A file that was found is a module exactly if nothing keeps it from being one. -/
theorem mem_kept_iff (ht : IsTree d) (hl : d.linkCount = 0) (habs : s.schemaFolder.isAbsolute = true)
    (hq : Leads d (d.startOf s.schemaFolder) s.schemaFolder.parts u q) (hu : u ≤ linkLimit)
    (hf : d.node? q = some .folder) (hfuel : d.depth < fuel + q.length) {output : Path}
    (ho : d.realPath s.outputFile = .ok output) :
    file ∈ (filesBelow d fuel s.schemaFolder).filter (keeps d s output) ↔
      ∃ names bytes time, file = ⟨s.schemaFolder.root, s.schemaFolder.parts ++ names⟩
        ∧ d.node? (q ++ names) = some (.file bytes time)
        ∧ isSourceName file.name = true
        ∧ (∀ x ∈ names.dropLast, x ∉ skippedFolders)
        ∧ file.name ≠ reservedName
        ∧ d.realPath s.outputFile ≠ .ok ⟨.slash, q ++ names⟩
        ∧ Glob.isExcluded s.schemaFolder file s.excludeGlobs = false := by
  have hname : ∀ names, d.IsFileAt (q ++ names) →
      Path.name ⟨s.schemaFolder.root, s.schemaFolder.parts ++ names⟩ = names.getLast?.getD "" := by
    intro names hfile
    have hne : names ≠ [] := by
      rintro rfl
      exact hfile.ne_folder (by simpa using hf)
    rw [Path.name, List.getLast?_append, List.getLast?_eq_some_getLast hne]
    rfl
  have hlead : ∀ {names bytes time}, d.node? (q ++ names) = some (.file bytes time) →
      Leads d (d.startOf s.schemaFolder) (s.schemaFolder.parts ++ names) (u + 0) (q ++ names) :=
    fun hn => hq.append (leads_below ht hl hn)
  rw [List.mem_filter, mem_filesBelow_iff ht hl habs hq hu hf hfuel, ho]
  constructor
  · rintro ⟨⟨names, hsource, rfl⟩, hkeep⟩
    obtain ⟨bytes, time, hn⟩ := id hsource.file
    obtain ⟨hreserved, hout, hx⟩ := (keeps_iff ht (hlead hn) hsource.file).1 hkeep
    exact ⟨names, bytes, time, rfl, hn, by rw [hname names hsource.file, hsource.name],
      hsource.folders, hreserved, fun he => hout (Except.ok.inj he).symm, hx⟩
  · rintro ⟨names, bytes, time, rfl, hn, hsuffix, hfolders, hreserved, hout, hx⟩
    have hfile : d.IsFileAt (q ++ names) := ⟨bytes, time, hn⟩
    rw [hname names hfile] at hsuffix
    exact ⟨⟨names, ⟨hfile, hsuffix, hfolders⟩, rfl⟩, (keeps_iff ht (hlead hn) hfile).2
      ⟨hreserved, fun he => hout (congrArg Except.ok he.symm), hx⟩⟩

/-- The modules of a run in a tree without links are exactly the source files below the schema folder
that no folder is passed over for, that have not the name of an aggregate module, that are not the
output, and that are not excluded. They come in the order of their paths, name by name, in whatever order
the entries are listed. -/
theorem modules_exact (ht : IsTree d) (hl : d.linkCount = 0) (habs : s.schemaFolder.isAbsolute = true)
    (h : (modules s d).result = .ok found) :
    found.Pairwise (fun a b => a.parts < b.parts)
    ∧ (∃ q, d.stat s.schemaFolder = .ok (q, .folder) ∧ ∀ file, file ∈ found ↔
      ∃ names bytes time, file = ⟨s.schemaFolder.root, s.schemaFolder.parts ++ names⟩
        ∧ d.node? (q ++ names) = some (.file bytes time)
        ∧ isSourceName file.name = true
        ∧ (∀ x ∈ names.dropLast, x ∉ skippedFolders)
        ∧ file.name ≠ reservedName
        ∧ d.realPath s.outputFile ≠ .ok ⟨.slash, q ++ names⟩
        ∧ Glob.isExcluded s.schemaFolder file s.excludeGlobs = false)
    ∧ ∀ d' : Disk, d'.nodes.Perm d.nodes → d'.here = d.here → (modules s d').result = .ok found := by
  have hlisted : ∀ d' : Disk, d'.nodes.Perm d.nodes → d'.here = d.here →
      (modules s d').result = .ok found := fun d' hp hh => by rw [modules_relisted s ht ⟨hp, hh⟩, h]
  obtain ⟨hfolder, output, ho⟩ := of_modules_result h
  obtain ⟨u, q, hq, hu, hf⟩ := (isFolder_iff ht).1 hfolder
  have hfuel : d.depth < bound d + q.length := by
    rw [bound, linkLimit]
    omega
  rw [modules_result ht hfolder ho] at h
  cases h
  exact ⟨(filesBelow_pairwise ht hl habs hq hu hf hfuel).filter _,
    ⟨q, (stat_eq_ok_iff ht).2 ⟨u, hq, hu, hf⟩, fun _ => mem_kept_iff ht hl habs hq hu hf hfuel ho⟩,
    hlisted⟩

/-- Names that are not in the order of the texts of the paths, beside what is passed over. -/
def mixedDisk : Disk :=
  ⟨[(["ws"], .folder), (["ws", "schema"], .folder), (["ws", "schema", "a.ts"], .file .empty 0),
    (["ws", "schema", "a-b.ts"], .file .empty 0), (["ws", "schema", "a"], .folder),
    (["ws", "schema", "a", "x.ts"], .file .empty 0),
    (["ws", "schema", "a", "index.ts"], .file .empty 0), (["ws", "schema", ".git"], .folder),
    (["ws", "schema", ".git", "x.ts"], .file .empty 0),
    (["ws", "schema", "generated-schema.ts"], .file .empty 0),
    (["ws", "schema", "out.ts"], .file .empty 0), (["ws", "schema", "notes.md"], .file .empty 0)],
    ["ws"], 0⟩

def mixedSettings : Settings :=
  ⟨⟨.slash, ["ws", "schema"]⟩, ⟨.slash, ["ws", "schema", "out.ts"]⟩, ["**/index.ts"], [".*"], [], true,
    true, [], "pgTable(", "dbSchema", false⟩

def mixedModules : List Path :=
  [⟨.slash, ["ws", "schema", "a", "x.ts"]⟩, ⟨.slash, ["ws", "schema", "a-b.ts"]⟩,
    ⟨.slash, ["ws", "schema", "a.ts"]⟩]

/-- The modules come in the order of their names, and so they do if the entries are listed backwards. -/
theorem modules_exact_mixed_names :
    (modules mixedSettings mixedDisk).result = .ok mixedModules
    ∧ mixedModules.Pairwise (fun a b => a.parts < b.parts)
    ∧ (∃ q, mixedDisk.stat ⟨.slash, ["ws", "schema"]⟩ = .ok (q, .folder) ∧ ∀ file, file ∈ mixedModules ↔
      ∃ names bytes time, file = ⟨.slash, ["ws", "schema"] ++ names⟩
        ∧ mixedDisk.node? (q ++ names) = some (.file bytes time)
        ∧ isSourceName file.name = true
        ∧ (∀ x ∈ names.dropLast, x ∉ skippedFolders)
        ∧ file.name ≠ reservedName
        ∧ mixedDisk.realPath ⟨.slash, ["ws", "schema", "out.ts"]⟩ ≠ .ok ⟨.slash, q ++ names⟩
        ∧ Glob.isExcluded ⟨.slash, ["ws", "schema"]⟩ file ["**/index.ts"] = false)
    ∧ (modules mixedSettings { mixedDisk with nodes := mixedDisk.nodes.reverse }).result
      = .ok mixedModules := by
  have hfound : (modules mixedSettings mixedDisk).result = .ok mixedModules :=
    eq_ok_of_toOption (by decide +kernel)
  obtain ⟨hordered, hmem, hlisted⟩ :=
    modules_exact (by decide +kernel) (by decide +kernel) (by decide) hfound
  exact ⟨hfound, hordered, hmem, hlisted _ (List.reverse_perm _) rfl⟩

end TableRoster.Scan
