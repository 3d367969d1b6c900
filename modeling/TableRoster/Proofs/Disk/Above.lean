import TableRoster.Proofs.Disk.Folders

/-! # What making folders leaves alone

Only folders of the path itself are made, and only where nothing was. -/

namespace TableRoster.Disk

variable {d d' d'' : Disk} {p : Place} {names : List String} {path whole : Path}

/-- A place is as it was, or a folder that belongs to a path is made where nothing was. -/
def Kept (path : Path) (d d' : Disk) (p : Place) : Prop :=
  d'.node? p = d.node? p ∨ d.node? p = none ∧ d'.node? p = some .folder
    ∧ ∃ above, above <+: path.parts ∧ p = d.resolvePlace ⟨path.root, above⟩

namespace Kept

theorem mono {root : Root} {above : List String} (h : Kept ⟨root, above⟩ d d' p)
    (hle : above <+: names) : Kept ⟨root, names⟩ d d' p := by
  refine h.imp_right fun ⟨hn, hf, ns, hns, hp⟩ => ⟨hn, hf, ns, hns.trans hle, hp⟩

theorem trans (hr : ∀ path, d'.resolvePlace path = d.resolvePlace path) (h : Kept path d d' p)
    (h' : Kept path d' d'' p) : Kept path d d'' p := by
  rcases h with h | ⟨hn, hf, hp⟩
  · rcases h' with h' | ⟨hn', hf', ns, hns, hp'⟩
    · exact .inl (h'.trans h)
    · exact .inr ⟨h ▸ hn', hf', ns, hns, by rw [← hr, hp']⟩
  · rcases h' with h' | ⟨hn', -, -⟩
    · exact .inr ⟨hn, h'.trans hf, hp⟩
    · simp [hf] at hn'

end Kept

/-- A folder is made where its path is resolved to. -/
theorem kept_of_makeFolder (ht : IsTree d) (hi : ∀ x ∈ path.parts, isImpossible x = false)
    (h : d.makeFolder path = .ok d') (p : Place) : Kept path d d' p := by
  have hmade : Makes [] path d (.ok (), d') := .of_makeFolder ht hi h
  obtain ⟨names, name, u, q, hparts, hd, hup, hq, hu, hf, hn, rfl⟩ := makeFolder_eq_ok ht h
  have hname : IsName name := ⟨hd, hup, hi name (by simp [hparts])⟩
  by_cases hp : p = q ++ [name]
  · subst hp
    refine .inr ⟨hn, node?_put_self d _ (by simp), path.parts, List.prefix_rfl, ?_⟩
    have hleads := leads_put_folder ht hname hf hn hq
    rw [← hparts, ← hmade.grown.startOf_eq path] at hleads
    rw [← hmade.grown.resolvePlace_eq]
    exact (hleads.resolvePlace hmade.tree).symm
  · exact .inl (node?_put_of_ne d _ hp)

theorem kept_of_makeFoldersOf (root : Root) (ht : IsTree d)
    (hi : ∀ x ∈ names, isImpossible x = false) (p : Place) :
    Kept ⟨root, names.reverse⟩ d (makeFoldersOf root names d).2 p := by
  have hi' : ∀ x ∈ (⟨root, names.reverse⟩ : Path).parts, isImpossible x = false :=
    fun x hx => hi x (List.mem_reverse.1 hx)
  induction names with
  | nil =>
    unfold makeFoldersOf
    dsimp only
    split
    · rename_i hm
      exact kept_of_makeFolder ht hi' hm p
    · exact .inl rfl
    · exact .inl rfl
  | cons name above ih =>
    have habove := (List.forall_mem_cons.1 hi).2
    have hmakes := makes_makeFoldersOf [] root ht habove
    have hkept : Kept ⟨root, (name :: above).reverse⟩ d (makeFoldersOf root above d).2 p :=
      (ih habove fun x hx => habove x (List.mem_reverse.1 hx)).mono (by simp)
    unfold makeFoldersOf
    dsimp only
    split
    · rename_i hm
      exact kept_of_makeFolder ht hi' hm p
    · split
      · rename_i he
        rw [he] at hkept
        exact hkept
      · rename_i he
        rw [he] at hkept hmakes
        split
        · rename_i hm
          exact hkept.trans hmakes.grown.resolvePlace_eq (kept_of_makeFolder hmakes.tree hi' hm p)
        · exact hkept
        · exact hkept
    · exact .inl rfl

/-- A tree that has grown by folders of a path at most. -/
structure GrownAbove (path : Path) (d d' : Disk) : Prop where
  tree : IsTree d'
  grown : ∀ out, Grown out d d'
  kept : ∀ p, Kept path d d' p

theorem grownAbove_makeFolders (ht : IsTree d) (hi : ∀ x ∈ path.parts, isImpossible x = false) :
    GrownAbove path d (d.makeFolders path).2 := by
  have hmakes : ∀ out, Makes out path d (d.makeFolders path) := fun out =>
    makes_makeFolders out ht hi
  refine ⟨(hmakes []).tree, fun out => (hmakes out).grown, fun p => ?_⟩
  have h := kept_of_makeFoldersOf path.root ht (fun x hx => hi x (List.mem_reverse.1 hx)) p
  rwa [List.reverse_reverse] at h

/-- The time of the next change plays no part. -/
theorem GrownAbove.set_now (h : GrownAbove path d d') (now : Int) :
    GrownAbove path d { d' with now := now } :=
  ⟨h.tree.set_now now, fun out => (h.grown out).set_now now, h.kept⟩

end TableRoster.Disk
