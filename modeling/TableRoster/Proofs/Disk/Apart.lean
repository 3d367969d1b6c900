import TableRoster.Proofs.Disk.Growth

/-! # Disks that differ in one file

Two disks have the same apart from one place, which holds a file or nothing. Whatever does not lead to
that place leads where it did. -/

namespace TableRoster.Disk

/-- One disk has what another has, apart from one place. -/
structure SameApart (p : Place) (d d' : Disk) : Prop where
  here : d'.here = d.here
  node : ∀ q ≠ p, d'.node? q = d.node? q

/-- A place holds a file at most. -/
def HoldsFile (d : Disk) (p : Place) : Prop :=
  d.node? p = none ∨ d.IsFileAt p

variable {d d' : Disk} {p q r : Place} {names : List String} {u : Nat} {path : Path}

namespace HoldsFile

theorem ne_folder (h : d.HoldsFile p) : d.node? p ≠ some .folder := by
  obtain h | h := h
  · simp [h]
  · exact h.ne_folder

theorem link? (h : d.HoldsFile p) : d.link? p = none := by
  obtain h | h := h
  · exact link?_eq_none_iff.2 (by simp [h])
  · exact IsFileAt.link? h

/-- No names lead on from such a place. -/
theorem leads (h : d.HoldsFile p) (hq : Leads d p names u q) : q = p := by
  cases hq with
  | here => rfl
  | step hp => exact absurd hp h.ne_folder
  | link hp => exact absurd hp h.ne_folder

end HoldsFile

theorem linkCount_le (ht : IsTree d') (h : d'.link? = d.link?) : d'.linkCount ≤ d.linkCount := by
  rw [linkCount, List.countP_eq_length_filter, ← List.length_map (·.1)]
  refine length_le_linkCount (ht.nodup.sublist (List.filter_sublist.map _)) fun a ha => ?_
  obtain ⟨e, he, rfl⟩ := List.mem_map.1 ha
  obtain ⟨hm, hlink⟩ := List.mem_filter.1 he
  split at hlink
  · rename_i t hn
    have hnode := (ht.node?_eq_some_iff (ht.inFolder e hm).1).2 hm
    rw [← h, link?_eq_some_iff.2 (hn ▸ hnode)]
    exact Option.some_ne_none t
  · cases hlink

namespace SameApart

theorem symm (h : SameApart p d d') : SameApart p d' d :=
  ⟨h.here.symm, fun q hq => (h.node q hq).symm⟩

theorem link?_eq (h : SameApart p d d') (hp : d.HoldsFile p) (hp' : d'.HoldsFile p) :
    d'.link? = d.link? := by
  funext q
  by_cases hq : q = p
  · rw [hq, hp.link?, hp'.link?]
  · rw [Disk.link?, Disk.link?, h.node q hq]

/-- A disk that has a file where the other has one, or none, has grown. -/
theorem grown (h : SameApart p d d') (ht : IsTree d) (ht' : IsTree d') (hp : d.HoldsFile p)
    (hp' : d'.HoldsFile p) (hmore : d.node? p = none ∨ d'.IsFileAt p) : Grown p d d' := by
  have hlink := h.link?_eq hp hp'
  refine ⟨h.here, Nat.le_antisymm (linkCount_le ht' hlink) (linkCount_le ht hlink.symm), fun q => ?_⟩
  by_cases hq : q = p
  · subst hq
    obtain hnone' | hfile' := hp'
    · obtain hnone | hfile' := hmore
      · exact .inl (hnone'.trans hnone.symm)
      · exact .inr (.inr ⟨rfl, hfile', hp⟩)
    · exact .inr (.inr ⟨rfl, hfile', hp⟩)
  · exact .inl (h.node q hq)

theorem startOf_eq (h : SameApart p d d') (path : Path) : d'.startOf path = d.startOf path := by
  simp only [startOf, h.here]

/-- Names lead where they did, unless there is nothing any more. -/
theorem leads (h : SameApart p d d') (hp : d.HoldsFile p) (hq : Leads d r names u q)
    (hthere : q = p → d'.IsFileAt p) : Leads d' r names u q := by
  have hfolder : ∀ {r}, d.node? r = some .folder → d'.node? r = some .folder := by
    intro r hr
    rw [h.node r, hr]
    rintro rfl
    exact hp.ne_folder hr
  induction hq with
  | here => exact .here
  | @step r name n rest u q hr hn hl hrest ih =>
    by_cases hs : stepTo r name = p
    · rw [hs] at hrest
      obtain ⟨bytes, time, hfile⟩ := hthere (hp.leads hrest)
      exact .step (hfolder hr) (hs ▸ hfile) (by simp) (ih hthere)
    · exact .step (hfolder hr) ((h.node _ hs).trans hn) hl (ih hthere)
  | @link r name t u m rest v q hr hn ht hrest ih₁ ih₂ =>
    have hs : stepTo r name ≠ p := by
      rintro rfl
      exact link?_eq_none_iff.1 hp.link? t hn
    refine .link (hfolder hr) ((h.node _ hs).trans hn) (ih₁ ?_) (ih₂ hthere)
    rintro rfl
    exact hthere (hp.leads hrest)

theorem leads_path (h : SameApart p d d') (hp : d.HoldsFile p)
    (hq : Leads d (d.startOf path) path.parts u q) (hne : q ≠ p) :
    Leads d' (d'.startOf path) path.parts u q := by
  rw [h.startOf_eq]
  exact h.leads hp hq fun he => absurd he hne

theorem isFolder (h : SameApart p d d') (ht : IsTree d) (ht' : IsTree d') (hp : d.HoldsFile p)
    (hf : d.isFolder path = true) : d'.isFolder path = true := by
  obtain ⟨u, q, hq, hu, hn⟩ := (isFolder_iff ht).1 hf
  have hne : q ≠ p := by
    rintro rfl
    exact hp.ne_folder hn
  exact (isFolder_iff ht').2 ⟨u, q, h.leads_path hp hq hne, hu, (h.node q hne).trans hn⟩

end SameApart

end TableRoster.Disk
