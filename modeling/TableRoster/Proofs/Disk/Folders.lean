import TableRoster.Proofs.Disk.Growth

/-! # Making folders -/

namespace TableRoster.Disk

variable {d d' : Disk} {p : Place} {names : List String} {path : Path}

/-- A folder that is made is a new name in a folder. -/
theorem makeFolder_eq_ok (ht : IsTree d) (h : d.makeFolder path = .ok d') :
    ∃ names name u p, path.parts = names ++ [name] ∧ name ≠ "." ∧ name ≠ ".."
      ∧ Leads d (d.startOf path) names u p ∧ u ≤ linkLimit ∧ d.node? p = some .folder
      ∧ d.node? (p ++ [name]) = none ∧ d' = d.put (p ++ [name]) .folder := by
  obtain ⟨root, parts⟩ := path
  unfold makeFolder at h
  split at h <;> cases h
  rename_i r hw
  obtain rfl | ⟨names, name, rfl⟩ := List.eq_nil_or_concat' parts
  · simp [walk, linkLimit, walkFrom, stretch, ht.startOf] at hw
  · obtain ⟨u, p, hp, hu, hf, ha⟩ := (walk_snoc_eq_ok_iff ht).1 hw
    simp only [Arrival.mk.injEq] at ha
    obtain ⟨rfl, hn⟩ := ha
    have hnf : d.node? (stepTo p name) ≠ some .folder := by simp [← hn]
    obtain ⟨hs, hd, hup⟩ := ht.stepTo_of_not_folder hf hnf
    exact ⟨names, name, u, p, rfl, hd, hup, hp, hu, hf, hs ▸ hn.symm, by rw [hs]⟩

/-- Names lead to a folder that is made behind them. -/
theorem leads_put_folder {q : Place} {name : String} {u : Nat} (ht : IsTree d) (hname : IsName name)
    (hf : d.node? q = some .folder) (hn : d.node? (q ++ [name]) = none) (hq : Leads d p names u q) :
    Leads (d.put (q ++ [name]) .folder) p (names ++ [name]) u (q ++ [name]) := by
  have hg : Grown [] d (d.put (q ++ [name]) .folder) := .put_folder ht hn
  have hlast : Leads (d.put (q ++ [name]) .folder) q [name] 0 (q ++ [name]) := by
    refine .step (hg.folder hf) (n := .folder) ?_ (by simp) (hname.stepTo ▸ .here)
    rw [hname.stepTo, node?_put_self d _ (by simp)]
  exact (hg.leads hq).append hlast

/-- What making a folder and those above it leaves: a tree that has grown, also where it fails; where
it does not, the folder is there. -/
structure Makes (out : Place) (path : Path) (d : Disk) (r : Except FileFault Unit × Disk) : Prop where
  tree : IsTree r.2
  grown : Grown out d r.2
  folder : r.1 = .ok () → r.2.isFolder path = true

namespace Makes

variable {out : Place} {f : FileFault} {r : Except FileFault Unit × Disk}

theorem of_makeFolder (ht : IsTree d) (hi : ∀ x ∈ path.parts, isImpossible x = false)
    (h : d.makeFolder path = .ok d') : Makes out path d (.ok (), d') := by
  obtain ⟨names, name, u, p, hparts, hd, hup, hp, hu, hf, hn, rfl⟩ := makeFolder_eq_ok ht h
  have hname : IsName name := ⟨hd, hup, hi name (by simp [hparts])⟩
  have ht' := ht.put hf hname (n := .folder) (.inl rfl)
  have hg : Grown out d (d.put (p ++ [name]) .folder) := .put_folder ht hn
  refine ⟨ht', hg, fun _ => (isFolder_iff ht').2
    ⟨u, p ++ [name], ?_, hu, node?_put_self d _ (by simp)⟩⟩
  rw [hparts, hg.startOf_eq]
  exact leads_put_folder ht hname hf hn hp

theorem failed (ht : IsTree d) : Makes out path d (.error f, d) :=
  ⟨ht, .refl out d, nofun⟩

/-- A fault does not matter if the folder is there. -/
theorem kept (ht : IsTree d) :
    Makes out path d (if d.isFolder path then .ok () else .error f, d) := by
  refine ⟨ht, .refl out d, fun h => ?_⟩
  dsimp only at h ⊢
  split at h
  · assumption
  · cases h

theorem trans (hg : Grown out d d') (h : Makes out path d' r) : Makes out path d r :=
  ⟨h.tree, hg.trans h.grown, h.folder⟩

end Makes

theorem makes_makeFoldersOf (out : Place) (root : Root) (ht : IsTree d)
    (hi : ∀ x ∈ names, isImpossible x = false) :
    Makes out ⟨root, names.reverse⟩ d (makeFoldersOf root names d) := by
  have hi' : ∀ x ∈ (⟨root, names.reverse⟩ : Path).parts, isImpossible x = false :=
    fun x hx => hi x (List.mem_reverse.1 hx)
  induction names with
  | nil =>
    unfold makeFoldersOf
    dsimp only
    split
    · rename_i hm
      exact .of_makeFolder ht hi' hm
    · exact .failed ht
    · exact .kept ht
  | cons name above ih =>
    have habove := (List.forall_mem_cons.1 hi).2
    have ih := ih habove fun x hx => habove x (List.mem_reverse.1 hx)
    unfold makeFoldersOf
    dsimp only
    split
    · rename_i hm
      exact .of_makeFolder ht hi' hm
    · split
      · rename_i he
        rw [he] at ih
        exact ⟨ih.tree, ih.grown, nofun⟩
      · rename_i he
        rw [he] at ih
        refine .trans ih.grown ?_
        split
        · rename_i hm
          exact .of_makeFolder ih.tree hi' hm
        · exact .failed ih.tree
        · exact .kept ih.tree
    · exact .kept ht

theorem makes_makeFolders (out : Place) (ht : IsTree d)
    (hi : ∀ x ∈ path.parts, isImpossible x = false) : Makes out path d (d.makeFolders path) := by
  have h := makes_makeFoldersOf out path.root ht fun x hx => hi x (List.mem_reverse.1 hx)
  rwa [List.reverse_reverse] at h

/-- A folder that is there is not made again. -/
theorem makeFolders_of_isFolder (ht : IsTree d) (h : d.isFolder path = true) :
    d.makeFolders path = (.ok (), d) := by
  have hm : d.makeFolder path = .error .exists := by
    obtain ⟨u, q, hq, hu, hn⟩ := (isFolder_iff ht).1 h
    obtain ⟨r, m, hw⟩ := walk_false_of_stat ht ((stat_eq_ok_iff ht).2 ⟨u, hq, hu, hn⟩)
    unfold makeFolder
    rw [hw]
  have heq : (⟨path.root, path.parts.reverse.reverse⟩ : Path) = path := by simp
  unfold makeFolders makeFoldersOf
  dsimp only
  rw [heq, hm]
  simp [h]

end TableRoster.Disk
