import Mathlib.Data.List.Perm.Subperm
import TableRoster.Output
import TableRoster.Proofs.Disk.Folders

/-! # Writing the file of the aggregate module

A file that is written is where its folder is resolved to. The disk grows by that file and by the
folders above it; the file beside it, which was written first, is gone. -/

namespace TableRoster.Output

open Disk

variable {d : Disk} {p q : Place} {path folder : Path} {names : List String} {content : String}
  {u : Nat}

/-- Where a file is written, once its folder is there. -/
def place (d : Disk) (path : Path) : Place :=
  d.resolvePlace path.parent ++ [path.name]

/-- There is a link where a file is to be written. -/
def IsLink (d : Disk) (path : Path) : Prop :=
  d.link? (place d path) ≠ none

instance (d : Disk) (path : Path) : Decidable (IsLink d path) :=
  inferInstanceAs (Decidable (_ ≠ _))

/-! ## The file beside it -/

/-- The folder of the file beside a path. -/
def beside (d : Disk) (path : Path) : Path :=
  ⟨.slash, path.parent.absoluteParts d.here⟩

theorem isName_temporary (n : Nat) : IsName (".schemagen_" ++ toString n ++ ".tmp") := by
  refine ⟨fun h => ?_, fun h => ?_, ?_⟩
  · have := congrArg (·.toList.length) h
    simp at this
  · have := congrArg (·.toList.length) h
    simp at this
  · have hdigits : '\x00' ∉ Nat.toDigits 10 n := by
      intro h
      have := Nat.isDigit_of_mem_toDigits (by decide) (by decide) h
      simp [Char.isDigit] at this
    simp [isImpossible, hdigits]

theorem temporaryNames_nodup (d : Disk) : (temporaryNames d).Nodup := by
  refine List.nodup_range.map fun a b h => ?_
  have := congrArg String.toList h
  simp only [String.toList_append, show ∀ n : Nat, toString n = n.repr from fun _ => rfl,
    Nat.toList_repr, List.append_cancel_left_eq, List.append_cancel_right_eq] at this
  simpa using congrArg (Nat.ofDigitChars 10 · 0) this

theorem freePlace_eq_ok (ht : IsTree d) (hn : ∀ x ∈ names, IsName x)
    (h : freePlace d folder names = .ok p) :
    ∃ q name, p = q ++ [name] ∧ IsName name ∧ d.node? q = some .folder ∧ d.node? p = none
      ∧ d.isFolder folder = true := by
  induction names with
  | nil => cases h
  | cons name names ih =>
    obtain ⟨hname, hn⟩ := List.forall_mem_cons.1 hn
    unfold freePlace at h
    split at h
    · cases h
    · rename_i hw
      cases h
      obtain ⟨u, q, hq, hu, hf, ha⟩ := (walk_snoc_eq_ok_iff ht).1 hw
      simp only [hname.stepTo, Arrival.mk.injEq] at ha
      obtain ⟨rfl, hnone⟩ := ha
      exact ⟨q, name, rfl, hname, hf, hnone.symm, (isFolder_iff ht).2 ⟨u, q, hq, hu, hf⟩⟩
    · exact ih hn h

theorem walk_child (ht : IsTree d) (hq : Leads d (d.startOf folder) folder.parts u q)
    (hu : u ≤ linkLimit) (hf : d.node? q = some .folder) {name : String} (hname : IsName name) :
    d.walk false (folder.child name) = .ok ⟨q ++ [name], d.node? (q ++ [name])⟩ :=
  (walk_snoc_eq_ok_iff ht).2 ⟨u, q, hq, hu, hf, by rw [hname.stepTo]⟩

/-- In a folder, a name is free or all are taken. -/
theorem freePlace_or_taken (hwalk : ∀ {x}, IsName x →
      d.walk false (folder.child x) = .ok ⟨q ++ [x], d.node? (q ++ [x])⟩)
    (hn : ∀ x ∈ names, IsName x) :
    (∃ p, freePlace d folder names = .ok p) ∨ ∀ x ∈ names, d.node? (q ++ [x]) ≠ none := by
  induction names with
  | nil => exact .inr (by simp)
  | cons x xs ih =>
    obtain ⟨hx, hxs⟩ := List.forall_mem_cons.1 hn
    cases hnode : d.node? (q ++ [x]) with
    | none => exact .inl ⟨q ++ [x], by simp [freePlace, hwalk hx, hnode]⟩
    | some n =>
      have hstep : freePlace d folder (x :: xs) = freePlace d folder xs := by
        simp [freePlace, hwalk hx, hnode]
      rw [hstep]
      exact (ih hxs).imp_right fun h => List.forall_mem_cons.2 ⟨by simp [hnode], h⟩

/-- In a folder, a name is free if there are more names than places on the disk. -/
theorem exists_freePlace (ht : IsTree d) (hf : d.isFolder folder = true)
    (hn : ∀ x ∈ names, IsName x) (hd : names.Nodup) (hl : d.nodes.length < names.length) :
    ∃ p, freePlace d folder names = .ok p := by
  obtain ⟨u, q, hq, hu, hfolder⟩ := (isFolder_iff ht).1 hf
  refine (freePlace_or_taken (walk_child ht hq hu hfolder) hn).resolve_right fun hall => ?_
  have hsub : names.map (q ++ [·]) ⊆ d.nodes.map (·.1) := by
    intro r hr
    obtain ⟨x, hx, rfl⟩ := List.mem_map.1 hr
    obtain ⟨n, hnode⟩ := Option.ne_none_iff_exists'.1 (hall x hx)
    exact List.mem_map.2 ⟨_, mem_nodes_of_node? (by simp) hnode, rfl⟩
  have hnodup : (names.map (q ++ [·])).Nodup := hd.map fun a b h => by simpa using h
  have := (hnodup.subperm hsub).length_le
  simp only [List.length_map] at this
  omega

theorem temporary_eq_ok (ht : IsTree d) (h : temporary d path = .ok p) :
    ∃ q name, p = q ++ [name] ∧ IsName name ∧ d.node? q = some .folder ∧ d.node? p = none
      ∧ d.isFolder (beside d path) = true :=
  freePlace_eq_ok ht (by simpa [temporaryNames] using fun n _ => isName_temporary n) h

theorem exists_temporary (ht : IsTree d) (hf : d.isFolder (beside d path) = true) :
    ∃ p, temporary d path = .ok p :=
  exists_freePlace ht hf (by simpa [temporaryNames] using fun n _ => isName_temporary n)
    (temporaryNames_nodup d) (by simp [temporaryNames])

/-! ## The file -/

theorem parts_eq (h : path.parts ≠ []) : path.parts = path.parent.parts ++ [path.name] := by
  rw [Path.parent, Path.name, List.getLast?_eq_some_getLast h]
  exact (List.dropLast_append_getLast h).symm

theorem place_eq_of_grown {d' : Disk} {out : Place} (h : Grown out d d') (path : Path) :
    place d' path = place d path := by
  rw [place, place, h.resolvePlace_eq]

/-- What is moved to a path gets to where its file is to be written. -/
theorem moveTo_eq_ok {d' : Disk} {n : Node} (ht : IsTree d) (h : d.moveTo p n path = .ok d') :
    path.parts ≠ [] ∧ path.name ≠ "." ∧ path.name ≠ ".." ∧ d.node? (place d path) ≠ some .folder
      ∧ d' = (d.erase p).put (place d path) n := by
  have hne : path.parts ≠ [] := by
    intro he
    simp [moveTo, walk, he, linkLimit, walkFrom, stretch, ht.startOf] at h
  have hpath : path = ⟨path.root, path.parent.parts ++ [path.name]⟩ := by
    rw [← parts_eq hne]
  unfold moveTo at h
  split at h
  · cases h
  · cases h
  · rename_i r m hnf hw
    cases h
    rw [hpath] at hw
    obtain ⟨u, q, hq, -, hf, ha⟩ := (walk_snoc_eq_ok_iff ht).1 hw
    simp only [Arrival.mk.injEq] at ha
    obtain ⟨rfl, rfl⟩ := ha
    obtain ⟨hs, hd, hu⟩ := ht.stepTo_of_not_folder hf hnf
    have hreal : d.resolvePlace path.parent = q := hq.resolvePlace ht
    have hplace : stepTo q path.name = place d path := by rw [hs, place, hreal]
    exact ⟨hne, hd, hu, hplace ▸ hnf, by rw [hplace]⟩

theorem erase_writeAt (hp : p ≠ []) (hn : d.node? p = none) (bytes : ByteArray) :
    (d.writeAt p bytes).erase p = { d with now := d.now + tick } := by
  have hkeep : d.nodes.filter (fun e => decide (e.1 ≠ p)) = d.nodes :=
    List.filter_eq_self.2 fun e he => by simpa using (node?_eq_none_iff hp).1 hn e he
  simp only [erase, writeAt, put, List.filter_cons_of_neg, ne_eq, not_true_eq_false, decide_false,
    Bool.false_eq_true, not_false_eq_true, hkeep]

/-- The file beside a path adds a file to the disk. -/
theorem writeAt_grown {name : String} (bytes : ByteArray) (ht : IsTree d)
    (hname : IsName name) (hf : d.node? q = some .folder) (hn : d.node? (q ++ [name]) = none) :
    IsTree (d.writeAt (q ++ [name]) bytes) ∧ Grown (q ++ [name]) d (d.writeAt (q ++ [name]) bytes) := by
  have hne : d.node? (q ++ [name]) ≠ some .folder := by simp [hn]
  exact ⟨(ht.put hf hname (.inr hne)).set_now _,
    (Grown.put_file bytes d.now ht hne (by simp [link?, hn])).set_now _⟩

/-- What a disk is once a file is written. -/
structure Written (path : Path) (content : String) (d d' : Disk) : Prop where
  tree : IsTree d'
  grown : Grown (place d path) d d'
  leads : ∃ u, Leads d' (d'.startOf path) path.parts u (place d path) ∧ u ≤ linkLimit
  file : ∃ time, d'.node? (place d path) = some (.file content.toUTF8 time)
  parent : d'.isFolder path.parent = true
  beside : d'.isFolder (beside d' path) = true

/-- A file in a folder that is there takes its place. -/
theorem put_written (content : String) (now time : Int) (ht : IsTree d)
    (hi : ∀ x ∈ path.parts, isImpossible x = false) (hne : path.parts ≠ [])
    (hd : path.name ≠ ".") (hu : path.name ≠ "..") (hparent : d.isFolder path.parent = true)
    (hbeside : d.isFolder (beside d path) = true) (hnf : d.node? (place d path) ≠ some .folder)
    (hl : ¬ IsLink d path) :
    Written path content d { d.put (place d path) (.file content.toUTF8 time) with now := now } := by
  have hname : IsName path.name := ⟨hd, hu, hi _ (by rw [parts_eq hne]; simp)⟩
  obtain ⟨u, q, hq, hle, hf⟩ := (isFolder_iff ht).1 hparent
  have hreal : d.resolvePlace path.parent = q := hq.resolvePlace ht
  have hplace : place d path = q ++ [path.name] := by rw [place, hreal]
  have hl' : d.link? (q ++ [path.name]) = none := by
    rw [← hplace]
    exact not_not.1 hl
  rw [hplace] at hnf ⊢
  have ht' := (ht.put (n := .file content.toUTF8 time) hf hname (.inr hnf)).set_now now
  have hg := (Grown.put_file content.toUTF8 time ht hnf hl').set_now now
  have hnode := node?_put_self d (.file content.toUTF8 time) (p := q ++ [path.name]) (by simp)
  have hlast := Leads.step (hg.folder hf) (by rw [hname.stepTo]; exact hnode) (by simp) .here
  rw [hname.stepTo] at hlast
  refine ⟨ht', ?_, ⟨u, ?_, hle⟩, ⟨time, ?_⟩, hg.isFolder ht ht' hparent, hg.isFolder ht ht' hbeside⟩
  · rw [hplace]
    exact hg
  · rw [hplace, parts_eq hne]
    exact (hg.leads hq).append hlast
  · rw [hplace]
    exact hnode

theorem write_written (ht : IsTree d) (hi : ∀ x ∈ path.parts, isImpossible x = false)
    (hl : ¬ IsLink d path) (h : (write path content d).1.result = .ok ()) :
    Written path content d (write path content d).2 := by
  have hi' : ∀ x ∈ path.parent.parts, isImpossible x = false :=
    fun x hx => hi x (List.dropLast_subset _ hx)
  obtain ⟨ht₁, hg₁, hparent⟩ := makes_makeFolders (place d path) ht hi'
  unfold write at h ⊢
  rcases hm : d.makeFolders path.parent with ⟨⟨f⟩ | ⟨⟩, d₁⟩
  · simp [hm, Telling.fail] at h
  simp only [hm] at ht₁ hg₁ hparent h ⊢
  cases htemp : temporary d₁ path with
  | error f => simp [htemp, Telling.fail] at h
  | ok p =>
    simp only [htemp] at h ⊢
    obtain ⟨q, tname, rfl, htname, hq, hnone, hbeside⟩ := temporary_eq_ok ht₁ htemp
    obtain ⟨htf, hgf⟩ := writeAt_grown content.toUTF8 ht₁ htname hq hnone
    cases hmove : (d₁.writeAt (q ++ [tname]) content.toUTF8).moveTo (q ++ [tname])
        (.file content.toUTF8 d₁.now) path with
    | error f =>
      simp only [hmove] at h
      cases h
    | ok done =>
      obtain ⟨hne, hd, hu, hnf, rfl⟩ := moveTo_eq_ok htf hmove
      rw [place_eq_of_grown hgf] at hnf ⊢
      have hl₁ : ¬ IsLink d₁ path := by rwa [IsLink, place_eq_of_grown hg₁, hg₁.link?_eq]
      have hw := put_written content (d₁.now + tick) d₁.now ht₁ hi hne hd hu
        (hparent trivial) hbeside (fun hf => hnf (hgf.folder hf)) hl₁
      have hplace := place_eq_of_grown hg₁ path
      rw [erase_writeAt (by simp) hnone]
      exact ⟨hw.tree, hg₁.trans (hplace ▸ hw.grown), hplace ▸ hw.leads, hplace ▸ hw.file, hw.parent,
        hw.beside⟩

/-! ## Reading it -/

/-- A file with a text is read, line ends made alike. -/
theorem read?_of_stat {time : Int} (h : d.stat path = .ok (p, .file content.toUTF8 time)) :
    (read? path d).result = .ok (some (String.ofList (Text.unifyLineEnds content.toList))) := by
  have hs : String.fromUTF8? content.toUTF8 = some content := dif_pos content.isValidUTF8
  have htext : d.text path = .ok (String.ofList (Text.unifyLineEnds content.toList)) := by
    simp only [Disk.text, Disk.bytes, h, textOf, hs]
  simp [read?, isFile, h, htext]

/-! ## Writing it again -/

/-- What is moved to a path in a folder takes the place of a file, or is new. -/
theorem moveTo_of_not_folder {n : Node} (ht : IsTree d) (hne : path.parts ≠ []) (hd : path.name ≠ ".")
    (hu : path.name ≠ "..") (hparent : d.isFolder path.parent = true)
    (hnf : d.node? (place d path) ≠ some .folder) :
    d.moveTo p n path = .ok ((d.erase p).put (place d path) n) := by
  obtain ⟨u, q, hq, hle, hf⟩ := (isFolder_iff ht).1 hparent
  have hreal : d.resolvePlace path.parent = q := hq.resolvePlace ht
  have hstep : stepTo q path.name = place d path := by
    rw [stepTo, if_neg hd, if_neg hu, place, hreal]
  have hpath : path = ⟨path.root, path.parent.parts ++ [path.name]⟩ := by
    rw [← parts_eq hne]
  have hw : d.walk false ⟨path.root, path.parent.parts ++ [path.name]⟩
      = .ok ⟨place d path, d.node? (place d path)⟩ :=
    (walk_snoc_eq_ok_iff ht).2 ⟨u, q, hq, hle, hf, by rw [hstep]⟩
  rw [← hpath] at hw
  unfold moveTo
  rw [hw]
  split
  · rename_i he
    cases he
  · rename_i he
    exact absurd (congrArg Arrival.node (Except.ok.inj he)) hnf
  · rename_i he
    obtain rfl := congrArg Arrival.place (Except.ok.inj he)
    rfl

/-- Where its folder is there, and the one beside it, the file is written, and nothing else. -/
theorem write_eq (ht : IsTree d) (hne : path.parts ≠ []) (hd : path.name ≠ ".") (hu : path.name ≠ "..")
    (hparent : d.isFolder path.parent = true) (hbeside : d.isFolder (beside d path) = true)
    (hnf : d.node? (place d path) ≠ some .folder) (content : String) :
    write path content d = (Telling.tell (.written path content.utf8ByteSize),
      ({ d with now := d.now + tick } : Disk).put (place d path) (.file content.toUTF8 d.now)) := by
  obtain ⟨p, htemp⟩ := exists_temporary ht hbeside
  obtain ⟨q, tname, rfl, htname, hq, hnone, -⟩ := temporary_eq_ok ht htemp
  obtain ⟨htf, hgf⟩ := writeAt_grown content.toUTF8 ht htname hq hnone
  have hplace := place_eq_of_grown hgf path
  -- the file beside it may have its name
  have hnf' : (d.writeAt (q ++ [tname]) content.toUTF8).node? (place d path) ≠ some .folder := by
    change (d.put (q ++ [tname]) (.file content.toUTF8 d.now)).node? (place d path) ≠ some .folder
    rw [node?_put (by simp)]
    split
    · simp
    · exact hnf
  have hmove := moveTo_of_not_folder (p := q ++ [tname]) (n := .file content.toUTF8 d.now) htf hne hd hu
    (hgf.isFolder ht htf hparent) (hplace ▸ hnf')
  unfold write
  simp only [makeFolders_of_isFolder ht hparent, htemp, hmove, erase_writeAt (by simp) hnone, hplace]

theorem write_ok (ht : IsTree d) (hne : path.parts ≠ []) (hparent : d.isFolder path.parent = true)
    (hbeside : d.isFolder (beside d path) = true) (hfile : d.IsFileAt (place d path))
    (content : String) : (write path content d).1.result = .ok () := by
  obtain ⟨bytes, time, hnode⟩ := hfile
  have hname : IsName path.name := ht.isName_of_snoc hnode
  rw [write_eq ht hne hname.1 hname.2.1 hparent hbeside (by simp [hnode])]
  rfl

namespace Written

variable {d' : Disk}

theorem parts_ne_nil (h : Written path content d d') : path.parts ≠ [] := by
  intro he
  obtain ⟨u, hq, -⟩ := h.leads
  obtain ⟨time, hf⟩ := h.file
  rw [he] at hq
  generalize place d path = q at hq hf
  cases hq
  simp [h.tree.startOf] at hf

theorem isLink_iff (h : Written path content d d') : IsLink d' path ↔ IsLink d path := by
  rw [IsLink, IsLink, place_eq_of_grown h.grown, h.grown.link?_eq]

/-- A file that was written can be written again. -/
theorem write_ok (h : Written path content d d') (content' : String) :
    (write path content' d').1.result = .ok () := by
  obtain ⟨time, hf⟩ := h.file
  exact Output.write_ok h.tree h.parts_ne_nil h.parent h.beside
    ⟨_, time, by rw [place_eq_of_grown h.grown, hf]⟩ content'

theorem bytes (h : Written path content d d') : d'.bytes path = .ok content.toUTF8 := by
  obtain ⟨u, hq, hle⟩ := h.leads
  obtain ⟨time, hf⟩ := h.file
  have := (stat_eq_ok_iff h.tree).2 ⟨u, hq, hle, hf⟩
  simp [Disk.bytes, this]

theorem isFile (h : Written path content d d') : d'.isFile path = true := by
  obtain ⟨u, hq, hle⟩ := h.leads
  obtain ⟨time, hf⟩ := h.file
  exact (isFile_iff h.tree).2 ⟨u, _, _, time, hq, hle, hf⟩

/-- A file that was written is read as it was written, line ends made alike. -/
theorem read? (h : Written path content d d') : (read? path d').result
    = .ok (some (String.ofList (Text.unifyLineEnds content.toList))) := by
  obtain ⟨u, hq, hle⟩ := h.leads
  obtain ⟨time, hf⟩ := h.file
  exact read?_of_stat ((stat_eq_ok_iff h.tree).2 ⟨u, hq, hle, hf⟩)

end Written

end TableRoster.Output
