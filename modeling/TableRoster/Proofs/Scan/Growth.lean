import TableRoster.Proofs.Disk.Growth
import TableRoster.Proofs.Path
import TableRoster.Proofs.Scan.Files

/-! # The search of a disk that has grown

New folders hold no source file but the one that was written. So a search that leaves that file out
finds what it found before, unless a link that led nowhere leads to something old that it takes. -/

namespace TableRoster.Scan

open Disk

/-- The folders that a search goes through, as far as they are there. -/
inductive Visited (schema : Path) : Path → Prop
  | start : Visited schema schema
  | child {folder : Path} {name : String} : Visited schema folder → name ∉ skippedFolders →
      Visited schema (folder.child name)

/-- The path of a source file does not keep it from being a module. -/
def IsCandidate (s : Settings) (file : Path) : Prop :=
  file.name ≠ reservedName ∧ Glob.isExcluded s.schemaFolder file s.excludeGlobs = false

/-- A search goes into the folder, or may take the file for a module, that an entry leads to. -/
def Takes (s : Settings) (d : Disk) (entry : Path) : Node → Prop
  | .folder => entry.name ∉ skippedFolders
  | .file .. => isSourceName entry.name = true ∧ IsCandidate s (d.absolute entry)
  | .link _ => False

/-- No link in a folder that a search goes through comes to lead to what was there before and what
the search takes, if it led nowhere. -/
def LinksStay (s : Settings) (d d' : Disk) : Prop :=
  ∀ folder p name t, Visited s.schemaFolder folder → d.stat folder = .ok (p, .folder) →
    d.link? (p ++ [name]) = some t → d.isThere ⟨.slash, p ++ [name]⟩ = false →
    ∀ q n, d'.stat ⟨.slash, p ++ [name]⟩ = .ok (q, n) → Takes s d (folder.child name) n →
      d.node? q = none

variable {d d' : Disk} {out p q r : Place} {s : Settings} {folder : Path} {name : String}
  {below : Path → List Path} {entry : Path} {u t fuel fuel' : Nat} {keep : Path → Bool}

theorem linksStay_of_no_link (h : d.linkCount = 0) : LinksStay s d d' := by
  intro folder p name target _ _ hlink
  rw [link?_eq_none h] at hlink
  cases hlink

/-! ## Entries -/

theorem filesOf_eq_nil (hf : d.isFolder entry = false) (hn : d.isFile entry = false) :
    filesOf d below entry = [] := by
  simp [filesOf, hf, hn]

theorem leads_child_iff (hp : Leads d (d.startOf folder) folder.parts u p) {v : Nat} :
    Leads d (d.startOf (folder.child name)) (folder.child name).parts v q ↔
      ∃ t, Leads d p [name] t q ∧ v = u + t := by
  constructor
  · intro h
    have h : Leads d (d.startOf folder) (folder.parts ++ [name]) v q := h
    obtain ⟨v, w, m, hv, hw, rfl⟩ := h.split
    obtain ⟨rfl, rfl⟩ := hp.unique hv
    exact ⟨w, hw, rfl⟩
  · rintro ⟨t, ht, rfl⟩
    exact hp.append ht

theorem not_leads_of_node?_eq_none (hname : IsName name) (h : d.node? (p ++ [name]) = none) :
    ¬ Leads d p [name] t q := by
  intro hq
  rw [← hname.stepTo] at h
  cases hq with
  | step _ hn _ _ => simp [hn] at h
  | link _ hn _ _ => simp [hn] at h

theorem isFolder_child_iff (ht : IsTree d) (hp : Leads d (d.startOf folder) folder.parts u p) :
    d.isFolder (folder.child name) = true ↔
      ∃ t q, Leads d p [name] t q ∧ u + t ≤ linkLimit ∧ d.node? q = some .folder := by
  simp only [isFolder_iff ht, leads_child_iff hp]
  constructor
  · rintro ⟨_, q, ⟨t, hq, rfl⟩, h⟩
    exact ⟨t, q, hq, h⟩
  · rintro ⟨t, q, hq, h⟩
    exact ⟨_, q, ⟨t, hq, rfl⟩, h⟩

theorem isFile_child_iff (ht : IsTree d) (hp : Leads d (d.startOf folder) folder.parts u p) :
    d.isFile (folder.child name) = true ↔
      ∃ t q, Leads d p [name] t q ∧ u + t ≤ linkLimit ∧ d.IsFileAt q := by
  simp only [isFile_iff ht, leads_child_iff hp]
  constructor
  · rintro ⟨_, q, bytes, time, ⟨t, hq, rfl⟩, hu, hn⟩
    exact ⟨t, q, hq, hu, bytes, time, hn⟩
  · rintro ⟨t, q, hq, hu, bytes, time, hn⟩
    exact ⟨_, q, bytes, time, ⟨t, hq, rfl⟩, hu, hn⟩

theorem isFolder_child_of_leads (ht : IsTree d) (hp : Leads d (d.startOf folder) folder.parts u p)
    (hq : Leads d p [name] t q) :
    d.isFolder (folder.child name) = true ↔ u + t ≤ linkLimit ∧ d.node? q = some .folder := by
  rw [isFolder_child_iff ht hp]
  constructor
  · rintro ⟨t', q', hq', h⟩
    obtain ⟨rfl, rfl⟩ := hq.unique hq'
    exact h
  · exact fun h => ⟨t, q, hq, h⟩

theorem isFile_child_of_leads (ht : IsTree d) (hp : Leads d (d.startOf folder) folder.parts u p)
    (hq : Leads d p [name] t q) :
    d.isFile (folder.child name) = true ↔ u + t ≤ linkLimit ∧ d.IsFileAt q := by
  rw [isFile_child_iff ht hp]
  constructor
  · rintro ⟨t', q', hq', h⟩
    obtain ⟨rfl, rfl⟩ := hq.unique hq'
    exact h
  · exact fun h => ⟨t, q, hq, h⟩

/-- A name that leads nowhere adds nothing. -/
theorem filesOf_child_eq_nil (ht : IsTree d) (hp : Leads d (d.startOf folder) folder.parts u p)
    (h : ∀ t q, Leads d p [name] t q → u + t ≤ linkLimit → d.node? q = none) :
    filesOf d below (folder.child name) = [] := by
  refine filesOf_eq_nil (Bool.eq_false_iff.2 fun hf => ?_) (Bool.eq_false_iff.2 fun hf => ?_)
  · obtain ⟨t, q, hq, hu, hn⟩ := (isFolder_child_iff ht hp).1 hf
    simp [h t q hq hu] at hn
  · obtain ⟨t, q, hq, hu, bytes, time, hn⟩ := (isFile_child_iff ht hp).1 hf
    simp [h t q hq hu] at hn

theorem childrenOf_of_leads (ht : IsTree d) (hp : Leads d (d.startOf folder) folder.parts u p)
    (hu : u ≤ linkLimit) (hf : d.node? p = some .folder) :
    (d.childrenOf folder).toOption.getD [] = Path.sort ((d.namesIn p).map folder.child) := by
  obtain ⟨q, hs, hc⟩ := childrenOf_of_isFolder ((isFolder_iff ht).2 ⟨u, p, hp, hu, hf⟩)
  obtain ⟨v, hq, -, -⟩ := (stat_eq_ok_iff ht).1 hs
  obtain ⟨-, rfl⟩ := hp.unique hq
  rw [hc]
  rfl

/-! ## New folders -/

section

variable (ht' : IsTree d') (hk : ∀ f u, Leads d' (d'.startOf f) f.parts u out → keep f = false)

include ht' hk

/-- What leads to the file that was written is not kept. -/
theorem filter_filesOf_out (hp : Leads d' (d'.startOf folder) folder.parts u p)
    (hq : Leads d' p [name] t out) (hf : d'.IsFileAt out) :
    (filesOf d' below (folder.child name)).filter keep = [] := by
  have hnf : d'.isFolder (folder.child name) = false := by
    refine Bool.eq_false_iff.2 fun h => ?_
    obtain ⟨v, r, hr, -, hn⟩ := (isFolder_child_iff ht' hp).1 h
    obtain ⟨-, rfl⟩ := hr.unique hq
    exact hf.ne_folder hn
  have habs := hk _ _ (leads_absolute ht' ((leads_child_iff hp).2 ⟨t, hq, rfl⟩))
  unfold filesOf
  rw [hnf]
  simp only [Bool.false_eq_true, ↓reduceIte]
  split
  · simp [habs]
  · rfl

variable (ht : IsTree d) (hg : Grown out d d')

include ht hg

/-- Below a new folder there is nothing to keep. -/
theorem filter_filesBelow_new (hp : Leads d' (d'.startOf folder) folder.parts u p)
    (hu : u ≤ linkLimit) (hf : d'.node? p = some .folder) (hnew : d.node? p = none) :
    (filesBelow d' fuel folder).filter keep = [] := by
  induction fuel generalizing folder u p with
  | zero => rfl
  | succ fuel ih =>
    unfold filesBelow
    rw [childrenOf_of_leads ht' hp hu hf, List.filter_flatMap, List.flatMap_eq_nil_iff]
    intro e he
    obtain ⟨name, hname, rfl⟩ := List.mem_map.1 ((Path.sort_perm _).mem_iff.1 he)
    obtain ⟨n, hn⟩ := ht'.mem_namesIn.1 hname
    have hstep := (ht'.isName_of_snoc hn).stepTo (p := p)
    have hnone : d.node? (p ++ [name]) = none := by
      by_contra h
      obtain ⟨m, hm⟩ := Option.ne_none_iff_exists'.1 h
      simp [ht.folder_of_snoc hm] at hnew
    have hwhat := hg.new hnone (by simp [hn])
    have hchild : Leads d' p [name] 0 (p ++ [name]) := by
      refine .step hf (hstep ▸ hn) (fun t he => ?_) (hstep ▸ .here)
      obtain h | ⟨-, b, s, h⟩ := hwhat
      · simp [he, h] at hn
      · simp [he, h] at hn
    obtain h | ⟨rfl, h⟩ := hwhat
    · unfold filesOf
      split
      · split
        · rfl
        · exact ih ((leads_child_iff hp).2 ⟨0, hchild, rfl⟩) hu h hnone
      · split
        · rename_i hfile
          obtain ⟨t, r, hr, -, hrf⟩ := (isFile_child_iff ht' hp).1 (Bool.and_eq_true_iff.1 hfile).1
          obtain ⟨-, rfl⟩ := hr.unique hchild
          exact absurd h hrf.ne_folder
        · rfl
    · exact filter_filesOf_out ht' hk hp hchild h

/-! ## Old folders -/

omit hk in
/-- What a name leads to that led nowhere before is new, if a search takes it. -/
theorem node?_eq_none_of_leads {m : Node} (hl : LinksStay s d d') (hv : Visited s.schemaFolder folder)
    (hs : d.stat folder = .ok (p, .folder)) (hp : d.node? p = some .folder) (hname : IsName name)
    (hno : ∀ t q, ¬ Leads d p [name] t q) (h : Leads d' p [name] t q) (hle : t ≤ linkLimit)
    (hm : d'.node? q = some m) (htake : Takes s d (folder.child name) m) : d.node? q = none := by
  have hstep := hname.stepTo (p := p)
  cases hn : d.node? (p ++ [name]) with
  | none =>
    cases h with
    | step _ _ _ h =>
      cases h
      rwa [hstep]
    | link _ hs _ _ =>
      rw [hstep] at hs
      obtain h | ⟨-, b, s, h⟩ := hg.new hn (by simp [hs])
      · simp [hs] at h
      · simp [hs] at h
  | some n =>
    cases n with
    | link target =>
      have hself' := Leads.self ht' (hg.folder hp) (by simp)
      have hthere : d.isThere ⟨.slash, p ++ [name]⟩ = false := by
        refine Bool.eq_false_iff.2 fun h => ?_
        obtain ⟨v, r, n, hr, -⟩ := (isThere_iff ht).1 h
        have hr : Leads d [] (p ++ [name]) v r := hr
        obtain ⟨a, b, m, ha, hb, -⟩ := hr.split
        obtain ⟨-, rfl⟩ := ha.unique (Leads.self ht hp (by simp))
        exact hno _ _ hb
      refine hl folder p name target hv hs (link?_eq_some_iff.2 hn) hthere q m
        ((stat_eq_ok_iff ht').2 ⟨0 + t, ?_, ?_, hm⟩) htake
      · exact hself'.append h
      · omega
    | folder =>
      exact absurd (.step hp (hstep ▸ hn) (by simp) (hstep ▸ .here)) (hno 0 (p ++ [name]))
    | file bytes time =>
      exact absurd (.step hp (hstep ▸ hn) (by simp) (hstep ▸ .here)) (hno 0 (p ++ [name]))

/-- The number of names that a search has followed, at most: between two links it stays within the
depth of the disk. -/
def progress (d : Disk) (u : Nat) (p : Place) : Nat :=
  u * (d.depth + 1) + p.length

omit ht' hk ht hg in
theorem progress_lt_bound (hu : u ≤ linkLimit) (hp : d.node? p ≠ none) : progress d u p < bound d := by
  have hlen := length_le_depth hp
  have hmul := Nat.mul_le_mul_right (d.depth + 1) hu
  rw [progress, bound, Nat.add_mul, Nat.one_mul]
  omega

omit ht' hk ht hg in
/-- A name that leads to a folder makes progress. -/
theorem progress_lt (hname : IsName name) (h : Leads d p [name] t q) :
    progress d u p < progress d (u + t) q := by
  cases h with
  | step hp _ _ h =>
    cases h
    simp only [progress, hname.stepTo, List.length_append, List.length_singleton, Nat.add_zero]
    omega
  | @link _ _ _ a _ _ b _ hp _ _ h =>
    have hlen := length_le_depth (d := d) (p := p) (by simp [hp])
    have hmul := Nat.mul_le_mul_right (d.depth + 1) (show u + 1 ≤ u + (a + b + 1) by omega)
    rw [Nat.add_mul, Nat.one_mul] at hmul
    rw [progress, progress]
    omega

omit ht' hk ht in
/-- What led somewhere leads to the same. -/
theorem filter_filesOf_of_leads {below' : Path → List Path} (ht : IsTree d) (ht' : IsTree d')
    (hp : Leads d (d.startOf folder) folder.parts u p) (hq : Leads d p [name] t q)
    (hbelow : name ∉ skippedFolders → u + t ≤ linkLimit → d.node? q = some .folder →
      (below' (folder.child name)).filter keep = (below (folder.child name)).filter keep) :
    (filesOf d' below' (folder.child name)).filter keep
      = (filesOf d below (folder.child name)).filter keep := by
  have hp' := hg.leads_path hp
  have hnode : d.node? q ≠ none := by
    cases hq with
    | step hf hn hl h => exact h.node (by simp [hn]) (by simp)
    | link hf hn hm h => exact (Leads.link hf hn hm h).node (by simp [hf]) (by simp)
  have hfolder : d'.isFolder (folder.child name) = d.isFolder (folder.child name) := by
    rw [Bool.eq_iff_iff, isFolder_child_of_leads ht hp hq,
      isFolder_child_of_leads ht' hp' (hg.leads hq), hg.folder_iff hnode]
  have hfile : d'.isFile (folder.child name) = d.isFile (folder.child name) := by
    rw [Bool.eq_iff_iff, isFile_child_of_leads ht hp hq,
      isFile_child_of_leads ht' hp' (hg.leads hq), hg.isFileAt_iff hnode]
  unfold filesOf
  rw [hfolder, hfile, hg.absolute_eq]
  split
  · rename_i h
    obtain ⟨hu, hf⟩ := (isFolder_child_of_leads ht hp hq).1 h
    rw [Path.name_child]
    split
    · rfl
    · rename_i hskip
      exact hbelow hskip hu hf
  · rfl

variable (hx : ∀ f, keep f = true → IsCandidate s f)

include hx

/-- What led nowhere leads to nothing that is kept. -/
theorem filter_filesOf_new (hl : LinksStay s d d') (hv : Visited s.schemaFolder folder)
    (hp : Leads d (d.startOf folder) folder.parts u p) (hu : u ≤ linkLimit)
    (hf : d.node? p = some .folder) (hname : IsName name) (hno : ∀ t q, ¬ Leads d p [name] t q) :
    (filesOf d' (filesBelow d' fuel) (folder.child name)).filter keep = [] := by
  have hp' := hg.leads_path hp
  have hs : d.stat folder = .ok (p, .folder) := (stat_eq_ok_iff ht).2 ⟨_, hp, hu, hf⟩
  unfold filesOf
  split
  · rename_i hfolder
    obtain ⟨t, q, hq, hu, hn⟩ := (isFolder_child_iff ht' hp').1 hfolder
    split
    · rfl
    · rename_i hskip
      have hnone := node?_eq_none_of_leads ht' ht hg hl hv hs hf hname hno hq (by omega) hn hskip
      exact filter_filesBelow_new ht' hk ht hg ((leads_child_iff hp').2 ⟨t, hq, rfl⟩) hu hn hnone
  · split
    · rename_i hfile
      obtain ⟨hfile, hsource⟩ := Bool.and_eq_true_iff.1 hfile
      obtain ⟨t, q, hq, hu, bytes, time, hn⟩ := (isFile_child_iff ht' hp').1 hfile
      have hkeep : keep (d'.absolute (folder.child name)) = false := by
        refine Bool.eq_false_iff.2 fun hkeep => ?_
        have htake : Takes s d (folder.child name) (.file bytes time) :=
          ⟨hsource, hg.absolute_eq (folder.child name) ▸ hx _ hkeep⟩
        have hnone := node?_eq_none_of_leads ht' ht hg hl hv hs hf hname hno hq (by omega) hn htake
        obtain h | ⟨rfl, -⟩ := hg.new hnone (by simp [hn])
        · simp [hn] at h
        · have := hk _ _ (leads_absolute ht' ((leads_child_iff hp').2 ⟨t, hq, rfl⟩))
          simp [hkeep] at this
      simp [hkeep]
    · rfl

/-- A search with fuel enough finds the same files, as far as they are kept. -/
theorem filter_filesBelow (hl : LinksStay s d d') (hv : Visited s.schemaFolder folder)
    (hp : Leads d (d.startOf folder) folder.parts u p) (hu : u ≤ linkLimit)
    (hf : d.node? p = some .folder) (hfuel : bound d ≤ fuel + progress d u p)
    (hfuel' : bound d' ≤ fuel' + progress d' u p) :
    (filesBelow d' fuel' folder).filter keep = (filesBelow d fuel folder).filter keep := by
  -- what is left of the bound is covered by the fuel, on both disks
  induction fuel generalizing fuel' folder u p with
  | zero =>
    have := progress_lt_bound hu (p := p) (d := d) (by simp [hf])
    omega
  | succ fuel ih =>
    have hf' := hg.folder hf
    have hp' := hg.leads_path hp
    obtain ⟨fuel', rfl⟩ : ∃ k, fuel' = k + 1 := by
      have := progress_lt_bound hu (p := p) (d := d') (by simp [hf'])
      exact ⟨fuel' - 1, by omega⟩
    have hnew : ∀ name, (∀ t q, ¬ Leads d p [name] t q) →
        filesOf d (filesBelow d fuel) (folder.child name) = [] :=
      fun name hno => filesOf_child_eq_nil ht hp fun t q hq => absurd hq (hno t q)
    have hentry : ∀ name, IsName name →
        (filesOf d' (filesBelow d' fuel') (folder.child name)).filter keep
          = (filesOf d (filesBelow d fuel) (folder.child name)).filter keep := by
      intro name hname
      by_cases hex : ∃ t q, Leads d p [name] t q
      · obtain ⟨t, q, hq⟩ := hex
        refine filter_filesOf_of_leads hg ht ht' hp hq fun hskip hu hf => ?_
        have hlt := progress_lt (u := u) hname hq
        have hlt' := progress_lt (u := u) hname (hg.leads hq)
        exact ih (hv.child hskip) ((leads_child_iff hp).2 ⟨t, hq, rfl⟩) hu hf (by omega) (by omega)
      · have hno : ∀ t q, ¬ Leads d p [name] t q := fun t q hq => hex ⟨t, q, hq⟩
        rw [filter_filesOf_new ht' hk ht hg hx hl hv hp hu hf hname hno, hnew name hno,
          List.filter_nil]
    simp only [filesBelow]
    rw [childrenOf_of_leads ht hp hu hf, childrenOf_of_leads ht' hp' hu hf', List.filter_flatMap,
      List.filter_flatMap]
    rw [List.flatMap_congr fun e he => ?_, Path.sort_flatMap (ht.namesIn_nodup p)
      (ht'.namesIn_nodup p) (hg.namesIn_subset ht ht' p)]
    · intro name hname hnot
      rw [hnew name fun t q => not_leads_of_node?_eq_none (ht'.isName_of_mem hname)
        (ht.node?_of_not_mem hnot), List.filter_nil]
    · obtain ⟨name, hname, rfl⟩ := List.mem_map.1 ((Path.sort_perm _).mem_iff.1 he)
      exact hentry name (ht'.isName_of_mem hname)

end

end TableRoster.Scan
