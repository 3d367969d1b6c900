import TableRoster.Proofs.Disk.RealPath

/-! # Disks that grow

A disk grows by folders where nothing was, and by a file at one place. Links stay as they are, so a
path that led somewhere still does, and real paths are the same. -/

namespace TableRoster.Disk

def IsFileAt (d : Disk) (p : Place) : Prop :=
  ∃ bytes time, d.node? p = some (.file bytes time)

/-- One disk has what another has, apart from new folders and a file at one place. -/
structure Grown (out : Place) (d d' : Disk) : Prop where
  here : d'.here = d.here
  linkCount : d'.linkCount = d.linkCount
  node : ∀ p, d'.node? p = d.node? p ∨ (d.node? p = none ∧ d'.node? p = some .folder)
    ∨ (p = out ∧ d'.IsFileAt p ∧ (d.node? p = none ∨ d.IsFileAt p))

variable {d d' d'' : Disk} {out p q : Place} {names : List String} {name t : String} {n : Node}
  {u : Nat} {path : Path}

theorem IsFileAt.ne_folder (h : d.IsFileAt p) : d.node? p ≠ some .folder := by
  obtain ⟨bytes, time, h⟩ := h
  simp [h]

theorem IsFileAt.link? (h : d.IsFileAt p) : d.link? p = none := by
  obtain ⟨bytes, time, h⟩ := h
  exact link?_eq_none_iff.2 (by simp [h])

namespace Grown

theorem refl (out : Place) (d : Disk) : Grown out d d :=
  ⟨rfl, rfl, fun _ => .inl rfl⟩

theorem trans (h : Grown out d d') (h' : Grown out d' d'') : Grown out d d'' := by
  refine ⟨h'.here.trans h.here, h'.linkCount.trans h.linkCount, fun p => ?_⟩
  have isFile : d''.node? p = d'.node? p → d'.IsFileAt p → d''.IsFileAt p := by
    intro he ⟨bytes, time, hf⟩
    exact ⟨bytes, time, he.trans hf⟩
  obtain h₁ | ⟨h₁, h₂⟩ | ⟨rfl, h₁, h₂⟩ := h.node p
  · obtain h₃ | ⟨h₃, h₄⟩ | ⟨rfl, h₃, h₄⟩ := h'.node p
    · exact .inl (h₃.trans h₁)
    · exact .inr (.inl ⟨h₁ ▸ h₃, h₄⟩)
    · exact .inr (.inr ⟨rfl, h₃, by simpa only [IsFileAt, h₁] using h₄⟩)
  · obtain h₃ | ⟨h₃, h₄⟩ | ⟨rfl, h₃, h₄⟩ := h'.node p
    · exact .inr (.inl ⟨h₁, h₃.trans h₂⟩)
    · exact .inr (.inl ⟨h₁, h₄⟩)
    · exact .inr (.inr ⟨rfl, h₃, .inl h₁⟩)
  · obtain h₃ | ⟨h₃, h₄⟩ | ⟨-, h₃, h₄⟩ := h'.node p
    · exact .inr (.inr ⟨rfl, isFile h₃ h₁, h₂⟩)
    · obtain ⟨bytes, time, hf⟩ := h₁
      simp [hf] at h₃
    · exact .inr (.inr ⟨rfl, h₃, h₂⟩)

/-! ## What stays -/

theorem folder (h : Grown out d d') (hp : d.node? p = some .folder) : d'.node? p = some .folder := by
  obtain h₁ | ⟨h₁, -⟩ | ⟨rfl, -, h₁⟩ := h.node p
  · exact h₁.trans hp
  · simp [hp] at h₁
  · exact h₁.elim (by simp [hp]) fun hf => absurd hp hf.ne_folder

theorem node_of_ne (h : Grown out d d') (hp : d.node? p = some n) (hne : p ≠ out) :
    d'.node? p = some n := by
  obtain h₁ | ⟨h₁, -⟩ | ⟨rfl, -⟩ := h.node p
  · exact h₁.trans hp
  · simp [hp] at h₁
  · exact absurd rfl hne

theorem link?_eq (h : Grown out d d') : d'.link? = d.link? := by
  funext p
  obtain h₁ | ⟨h₁, h₂⟩ | ⟨rfl, h₁, h₂⟩ := h.node p
  · simp only [link?, h₁]
  · simp only [link?, h₁, h₂]
  · rw [h₁.link?]
    exact (h₂.elim (fun h => by simp [link?, h]) IsFileAt.link?).symm

/-- What was no link has something that is no link. -/
theorem no_link (h : Grown out d d') (hp : d.node? p = some n) (hn : ∀ t, n ≠ .link t) :
    ∃ m, d'.node? p = some m ∧ ∀ t, m ≠ .link t := by
  obtain h₁ | ⟨h₁, -⟩ | ⟨rfl, ⟨bytes, time, hf⟩, -⟩ := h.node p
  · exact ⟨n, h₁.trans hp, hn⟩
  · simp [hp] at h₁
  · exact ⟨_, hf, by simp⟩

theorem leads (h : Grown out d d') (hq : Leads d p names u q) : Leads d' p names u q := by
  induction hq with
  | here => exact .here
  | step hp hs hl _ ih =>
    obtain ⟨m, hm, hl'⟩ := h.no_link hs hl
    exact .step (h.folder hp) hm hl' ih
  | link hp hs _ _ ih₁ ih₂ =>
    have := link?_eq_some_iff.2 hs
    rw [← h.link?_eq] at this
    exact .link (h.folder hp) (link?_eq_some_iff.1 this) ih₁ ih₂

theorem startOf_eq (h : Grown out d d') (path : Path) : d'.startOf path = d.startOf path := by
  simp only [startOf, h.here]

theorem leads_path (h : Grown out d d') (hq : Leads d (d.startOf path) path.parts u q) :
    Leads d' (d'.startOf path) path.parts u q := by
  rw [h.startOf_eq]
  exact h.leads hq

theorem absolute_eq (h : Grown out d d') (path : Path) : d'.absolute path = d.absolute path := by
  simp only [absolute, h.here]

theorem isFolder (h : Grown out d d') (ht : IsTree d) (ht' : IsTree d')
    (hp : d.isFolder path = true) : d'.isFolder path = true := by
  obtain ⟨u, q, hq, hu, hn⟩ := (isFolder_iff ht).1 hp
  exact (isFolder_iff ht').2 ⟨u, q, h.leads_path hq, hu, h.folder hn⟩

theorem folder_iff (h : Grown out d d') (hp : d.node? p ≠ none) :
    d'.node? p = some .folder ↔ d.node? p = some .folder := by
  refine ⟨fun hf => ?_, h.folder⟩
  obtain h₁ | ⟨h₁, -⟩ | ⟨rfl, h₁, -⟩ := h.node p
  · exact h₁ ▸ hf
  · exact absurd h₁ hp
  · exact absurd hf h₁.ne_folder

theorem isFileAt_iff (h : Grown out d d') (hp : d.node? p ≠ none) :
    d'.IsFileAt p ↔ d.IsFileAt p := by
  obtain h₁ | ⟨h₁, -⟩ | ⟨rfl, h₁, h₂⟩ := h.node p
  · rw [IsFileAt, IsFileAt, h₁]
  · exact absurd h₁ hp
  · exact ⟨fun _ => h₂.resolve_left hp, fun _ => h₁⟩

theorem node_ne_none (h : Grown out d d') (hp : d.node? p ≠ none) : d'.node? p ≠ none := by
  obtain h₁ | ⟨h₁, -⟩ | ⟨rfl, ⟨bytes, time, h₁⟩, -⟩ := h.node p
  · exact h₁ ▸ hp
  · exact absurd h₁ hp
  · simp [h₁]

theorem namesIn_subset (h : Grown out d d') (ht : IsTree d) (ht' : IsTree d') (p : Place) :
    d.namesIn p ⊆ d'.namesIn p := by
  intro name hm
  obtain ⟨n, hn⟩ := ht.mem_namesIn.1 hm
  exact ht'.mem_namesIn.2 (Option.ne_none_iff_exists'.1 (h.node_ne_none (by simp [hn])))

/-- What is new is a folder, or the file. -/
theorem new (h : Grown out d d') (hp : d.node? p = none) (hn : d'.node? p ≠ none) :
    d'.node? p = some .folder ∨ p = out ∧ d'.IsFileAt p := by
  obtain h₁ | ⟨-, h₁⟩ | ⟨h₁, h₂, -⟩ := h.node p
  · exact absurd (h₁.trans hp) hn
  · exact .inl h₁
  · exact .inr ⟨h₁, h₂⟩

/-! ## Real paths -/

theorem resolveAlong_eq (h : Grown out d d') {active : List Place}
    {follow : Place → String → Resolution} :
    d'.resolveAlong active follow p names = d.resolveAlong active follow p names := by
  induction names generalizing p with
  | nil => rfl
  | cons name rest ih => simp only [resolveAlong, h.link?_eq, ih]

theorem resolveFrom_eq (h : Grown out d d') {fuel : Nat} {active : List Place} :
    d'.resolveFrom fuel active p names = d.resolveFrom fuel active p names := by
  induction fuel generalizing active p names with
  | zero => simp only [resolveFrom, h.resolveAlong_eq]
  | succ fuel ih => simp only [resolveFrom, h.resolveAlong_eq, ih]

theorem resolves (h : Grown out d d') (hq : Resolves d p names u q) : Resolves d' p names u q := by
  induction hq with
  | here => exact .here
  | step hl _ ih => exact .step (h.link?_eq ▸ hl) ih
  | link hd hu hl _ _ ih₁ ih₂ => exact .link hd hu (h.link?_eq ▸ hl) ih₁ ih₂

theorem realPath (h : Grown out d d') (ht : IsTree d) (ht' : IsTree d') (hr : Resolvable d path)
    (hi : ∀ x ∈ path.parts, isImpossible x = false) : d'.realPath path = d.realPath path := by
  obtain ⟨u, q, hq⟩ := hr
  have hq' := h.resolves hq
  rw [← h.startOf_eq] at hq'
  rw [hq.realPath ht hi, hq'.realPath ht' hi]

theorem resolvePlace_eq (h : Grown out d d') (path : Path) :
    d'.resolvePlace path = d.resolvePlace path := by
  simp only [resolvePlace, h.linkCount, h.startOf_eq, h.resolveFrom_eq]

end Grown

/-! ## Steps of growth -/

theorem linkCount_put (ht : IsTree d) (hp : p ≠ []) (hl : d.link? p = none) (hn : ∀ t, n ≠ .link t) :
    (d.put p n).linkCount = d.linkCount := by
  unfold linkCount
  rw [Disk.put, List.countP_cons_of_neg, List.countP_filter]
  · refine List.countP_congr fun e he => ?_
    by_cases hep : e.1 = p
    · have := (ht.node?_eq_some_iff hp).2 (hep ▸ he : (p, e.2) ∈ d.nodes)
      have hlink := link?_eq_none_iff.1 hl
      cases hk : e.2 with
      | link t => exact absurd (hk ▸ this) (hlink t)
      | _ => simp
    · simp [hep]
  · cases n with
    | link t => exact absurd rfl (hn t)
    | _ => simp

theorem Grown.put_folder (ht : IsTree d) (hp : d.node? (p ++ [name]) = none) :
    Grown out d (d.put (p ++ [name]) .folder) := by
  have hs : p ++ [name] ≠ [] := by simp
  refine ⟨rfl, linkCount_put ht hs (by simp [link?, hp]) (by simp), fun q => ?_⟩
  rw [node?_put hs]
  split
  · rename_i he
    exact .inr (.inl ⟨he ▸ hp, rfl⟩)
  · exact .inl rfl

theorem Grown.put_file (bytes : ByteArray) (time : Int) (ht : IsTree d)
    (hf : d.node? (p ++ [name]) ≠ some .folder) (hl : d.link? (p ++ [name]) = none) :
    Grown (p ++ [name]) d (d.put (p ++ [name]) (.file bytes time)) := by
  have hs : p ++ [name] ≠ [] := by simp
  refine ⟨rfl, linkCount_put ht hs hl (by simp), fun q => ?_⟩
  rw [node?_put hs]
  split
  · rename_i he
    refine .inr (.inr ⟨he, ⟨bytes, time, by rw [node?_put hs, if_pos he]⟩, ?_⟩)
    rw [he]
    cases hq : d.node? (p ++ [name]) with
    | none => exact .inl rfl
    | some n =>
      cases n with
      | folder => exact absurd hq hf
      | file bytes time => exact .inr ⟨bytes, time, hq⟩
      | link t => exact absurd hq (link?_eq_none_iff.1 hl t)
  · exact .inl rfl

/-- The time of the next change plays no part. -/
theorem Grown.set_now (h : Grown out d d') (now : Int) : Grown out d { d' with now := now } :=
  ⟨h.here, h.linkCount, h.node⟩

theorem IsTree.set_now (h : IsTree d) (now : Int) : IsTree { d with now := now } :=
  ⟨h.nodup, h.inFolder, h.named, h.here⟩

end TableRoster.Disk
