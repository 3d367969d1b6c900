import Mathlib.Data.List.Perm.Subperm
import TableRoster.Proofs.Disk.Walk

/-! # Real paths

Names resolve to a place whether or not something is there, unless a link leads back to itself. The
relation counts the links: a link that is being resolved takes more of them than anything that its
target leads through, so it does not come up again. -/

namespace TableRoster.Disk

/-- Names resolve from one place to another, over so many links. Only links are looked at. -/
inductive Resolves (d : Disk) : Place → List String → Nat → Place → Prop
  | here {p} : Resolves d p [] 0 p
  | step {p name rest u q} : (name ≠ "." → name ≠ ".." → d.link? (p ++ [name]) = none) →
      Resolves d (stepTo p name) rest u q → Resolves d p (name :: rest) u q
  | link {p name t u m rest v q} : name ≠ "." → name ≠ ".." → d.link? (p ++ [name]) = some t →
      Resolves d (targetStart p t) (Path.partsOf t.toList) u m → Resolves d m rest v q →
      Resolves d p (name :: rest) (u + v + 1) q

/-- A place with no link at it or above it. -/
structure IsReal (d : Disk) (p : Place) : Prop where
  noLink : ∀ q, q <+: p → d.link? q = none
  plain : ∀ x ∈ p, x ≠ "." ∧ x ≠ ".."

variable {d : Disk} {p q r m : Place} {names more rest : List String} {name t : String} {u v fuel : Nat}
  {active : List Place} {follow : Place → String → Resolution} {path : Path}

theorem length_le_linkCount (hn : active.Nodup) (hl : ∀ a ∈ active, d.link? a ≠ none) :
    active.length ≤ d.linkCount := by
  rw [linkCount, List.countP_eq_length_filter, ← List.length_map (fun e : Place × Node => e.1)]
  refine (hn.subperm fun a ha => ?_).length_le
  obtain ⟨t, ht⟩ := Option.ne_none_iff_exists'.1 (hl a ha)
  have hnode := link?_eq_some_iff.1 ht
  have hne : a ≠ [] := by
    rintro rfl
    simp at hnode
  exact List.mem_map.2 ⟨_, List.mem_filter.2 ⟨mem_nodes_of_node? hne hnode, rfl⟩, rfl⟩

theorem link?_eq_none (h : d.linkCount = 0) (p : Place) : d.link? p = none := by
  by_contra hp
  have := length_le_linkCount (List.nodup_singleton p) (List.forall_mem_singleton.2 hp)
  rw [h] at this
  cases this

/-! ## Rows of names -/

namespace Resolves

/-- Names resolve to one place, over one number of links. -/
theorem unique (h : Resolves d p names u q) (h' : Resolves d p names v r) : u = v ∧ q = r := by
  induction h generalizing v r with
  | here => cases h'; exact ⟨rfl, rfl⟩
  | step hl _ ih =>
    cases h' with
    | step _ h' => exact ih h'
    | link hd hu hl' => simp [hl hd hu] at hl'
  | link hd hu hl _ _ ih₁ ih₂ =>
    cases h' with
    | step hl' _ => simp [hl' hd hu] at hl
    | link _ _ hl' h₁ h₂ =>
      obtain rfl : _ = _ := by simpa using hl.symm.trans hl'
      obtain ⟨rfl, rfl⟩ := ih₁ h₁
      obtain ⟨rfl, rfl⟩ := ih₂ h₂
      exact ⟨rfl, rfl⟩

/-- What resolves does so in two parts. -/
theorem split (h : Resolves d p (names ++ more) u q) :
    ∃ v w m, Resolves d p names v m ∧ Resolves d m more w q ∧ u = v + w := by
  induction names generalizing p u with
  | nil => exact ⟨0, u, p, .here, h, by omega⟩
  | cons name names ih =>
    cases h with
    | step hl h =>
      obtain ⟨v, w, m, hv, hw, rfl⟩ := ih h
      exact ⟨v, w, m, .step hl hv, hw, rfl⟩
    | link hd hu hl h₁ h₂ =>
      obtain ⟨v, w, m, hv, hw, rfl⟩ := ih h₂
      exact ⟨_, w, m, .link hd hu hl h₁ hv, hw, by omega⟩

theorem append (h : Resolves d p names u q) (h' : Resolves d q more v r) :
    Resolves d p (names ++ more) (u + v) r := by
  induction h with
  | here => simpa using h'
  | step hl _ ih => exact .step hl (ih h')
  | link hd hu hl h₁ _ _ ih =>
    have := Resolves.link hd hu hl h₁ (ih h')
    rwa [show ∀ a b, a + (b + v) + 1 = a + b + 1 + v by omega] at this

end Resolves

/-- Names that lead somewhere resolve to the same place. -/
theorem Leads.resolves (ht : IsTree d) (h : Leads d p names u q) : Resolves d p names u q := by
  induction h with
  | here => exact .here
  | @step p name n rest u q hp hs hl _ ih =>
    refine .step (fun hd hu => link?_eq_none_iff.2 fun t he => ?_) ih
    rw [stepTo, if_neg hd, if_neg hu, he] at hs
    exact hl t (Option.some.inj hs).symm
  | @link p name t u m rest v q hp hs _ _ ih₁ ih₂ =>
    have hnf : d.node? (stepTo p name) ≠ some .folder := by simp [hs]
    obtain ⟨heq, hd, hu⟩ := ht.stepTo_of_not_folder hp hnf
    refine .link hd hu (link?_eq_some_iff.2 (heq ▸ hs)) ?_ ih₂
    -- a slash at the end of a target adds a name that changes nothing
    unfold targetNames at ih₁
    split at ih₁
    · obtain ⟨a, b, m', ha, hb, rfl⟩ := ih₁.split
      cases hb with
      | step _ hb => cases hb; exact ha
      | link hd => exact absurd rfl hd
    · simpa using ih₁

/-- No link on the way of a path leads back to itself. -/
def Resolvable (d : Disk) (path : Path) : Prop :=
  ∃ u q, Resolves d (d.startOf path) path.parts u q

/-- No link leads back to itself: names resolve to some place from every folder. -/
def Unlooped (d : Disk) : Prop :=
  ∀ p names, d.node? p = some .folder → ∃ u q, Resolves d p names u q

theorem unlooped_of_no_link (h : d.linkCount = 0) : Unlooped d := by
  intro p names hp
  clear hp
  induction names generalizing p with
  | nil => exact ⟨0, p, .here⟩
  | cons name rest ih =>
    obtain ⟨u, q, hq⟩ := ih (stepTo p name)
    exact ⟨u, q, .step (fun _ _ => link?_eq_none h _) hq⟩

/-! ## The program finds it -/

theorem resolveAlong_step (h : name ≠ "." → name ≠ ".." → d.link? (p ++ [name]) = none) :
    d.resolveAlong active follow p (name :: rest)
      = d.resolveAlong active follow (stepTo p name) rest := by
  by_cases hd : name = "."
  · subst hd; simp [resolveAlong]
  · by_cases hu : name = ".."
    · subst hu; simp [resolveAlong]
    · simp [resolveAlong, stepTo, hd, hu, h hd hu]

theorem resolveAlong_link (hd : name ≠ ".") (hu : name ≠ "..") (hl : d.link? (p ++ [name]) = some t)
    (ha : p ++ [name] ∉ active) (hm : follow (p ++ [name]) t = .real m) :
    d.resolveAlong active follow p (name :: rest) = d.resolveAlong active follow m rest := by
  simp [resolveAlong, hd, hu, hl, ha, hm]

/-- Links that are being resolved while names resolve over `u` links. Each takes more of them, so
none is met again. -/
structure Resolving (d : Disk) (active : List Place) (u : Nat) : Prop where
  nodup : active.Nodup
  link : ∀ a ∈ active, d.link? a ≠ none
  takes : ∀ a ∈ active, ∃ p name c r, a = p ++ [name] ∧ Resolves d p [name] c r ∧ u < c

namespace Resolving

theorem nil : Resolving d [] u :=
  ⟨List.nodup_nil, by simp, by simp⟩

theorem mono (h : Resolving d active u) (hle : v ≤ u) : Resolving d active v := by
  refine ⟨h.nodup, h.link, fun a ha => ?_⟩
  obtain ⟨p, name, c, r, he, hc, hlt⟩ := h.takes a ha
  exact ⟨p, name, c, r, he, hc, by omega⟩

theorem fresh (h : Resolving d active u) (hm : Resolves d p [name] v m) (hle : v ≤ u) :
    p ++ [name] ∉ active := by
  intro hmem
  obtain ⟨p', name', c, r, he, hc, hlt⟩ := h.takes _ hmem
  obtain ⟨rfl, hname⟩ := List.append_inj' he rfl
  obtain rfl := List.singleton_inj.1 hname
  have := (hc.unique hm).1
  omega

theorem cons (h : Resolving d active u) (hl : d.link? (p ++ [name]) ≠ none)
    (hm : Resolves d p [name] (v + 1) m) (hle : v + 1 ≤ u) :
    Resolving d ((p ++ [name]) :: active) v := by
  refine ⟨List.nodup_cons.2 ⟨h.fresh hm hle, h.nodup⟩, List.forall_mem_cons.2 ⟨hl, h.link⟩,
    List.forall_mem_cons.2 ⟨⟨p, name, v + 1, m, rfl, hm, by omega⟩, ?_⟩⟩
  exact (h.mono (by omega)).takes

theorem length_le (h : Resolving d active u) : active.length ≤ d.linkCount :=
  length_le_linkCount h.nodup h.link

end Resolving

namespace Resolves

theorem resolveFrom (h : Resolves d p names u q) (ha : Resolving d active u)
    (hf : d.linkCount ≤ active.length + fuel) : d.resolveFrom fuel active p names = .real q := by
  induction h generalizing active fuel with
  | here => cases fuel <;> simp [Disk.resolveFrom, resolveAlong]
  | step hl _ ih =>
    have := ih ha hf
    cases fuel <;> simpa only [Disk.resolveFrom, resolveAlong_step hl] using this
  | @link p name t u m rest v q hd hu hl hm _ ih₁ ih₂ =>
    have hself : Resolves d p [name] (u + 1) m := .link hd hu hl hm .here
    have hcons : Resolving d ((p ++ [name]) :: active) u := ha.cons (by simp [hl]) hself (by omega)
    -- the links are different ones, so fuel is left for one more
    obtain ⟨k, rfl⟩ : ∃ k, fuel = k + 1 := by
      have hle := hcons.length_le
      rw [List.length_cons] at hle
      exact ⟨fuel - 1, by omega⟩
    have htarget := ih₁ hcons (by rw [List.length_cons]; omega : _ ≤ _ + k)
    have hrest := ih₂ (ha.mono (by omega)) hf
    rw [Disk.resolveFrom] at hrest ⊢
    rw [← hrest]
    refine resolveAlong_link hd hu hl (ha.fresh hself (by omega)) ?_
    rwa [List.dropLast_concat]

theorem resolvePlace (h : Resolves d (d.startOf path) path.parts u q) : d.resolvePlace path = q := by
  unfold Disk.resolvePlace
  rw [h.resolveFrom .nil (by simp)]

end Resolves

/-! ## Real places -/

theorem isReal_root : IsReal d [] :=
  ⟨fun q hq => by simp [List.prefix_nil.1 hq, link?], by simp⟩

theorem IsReal.snoc (h : IsReal d p) (hd : name ≠ ".") (hu : name ≠ "..")
    (hl : d.link? (p ++ [name]) = none) : IsReal d (p ++ [name]) := by
  refine ⟨fun q hq => ?_, fun x hx => ?_⟩
  · obtain rfl | hq := List.prefix_concat_iff.1 hq
    · simpa using hl
    · exact h.noLink q hq
  · obtain hx | hx := List.mem_append.1 hx
    · exact h.plain x hx
    · obtain rfl := List.mem_singleton.1 hx
      exact ⟨hd, hu⟩

theorem IsReal.dropLast (h : IsReal d p) : IsReal d p.dropLast :=
  ⟨fun q hq => h.noLink q (hq.trans (List.dropLast_prefix p)),
    fun x hx => h.plain x (List.dropLast_subset _ hx)⟩

/-- What is there and no link is at a real place. -/
theorem IsTree.isReal (ht : IsTree d) {n : Node} (hp : d.node? p = some n) (hn : ∀ t, n ≠ .link t) :
    IsReal d p := by
  induction p using List.reverseRecOn generalizing n with
  | nil => exact isReal_root
  | append_singleton p name ih =>
    have hname := ht.isName_of_snoc hp
    refine (ih (ht.folder_of_snoc hp) (by simp)).snoc hname.1 hname.2.1 (link?_eq_none_iff.2 ?_)
    exact fun t he => hn t (Option.some.inj (hp.symm.trans he))

theorem IsTree.isReal_startOf (ht : IsTree d) (path : Path) : IsReal d (d.startOf path) :=
  ht.isReal (ht.startOf path) (by simp)

theorem Resolves.isReal (h : Resolves d p names u q) (hp : IsReal d p) : IsReal d q := by
  induction h with
  | here => exact hp
  | @step p name rest u q hl _ ih =>
    refine ih ?_
    by_cases hd : name = "."
    · subst hd; exact hp
    · by_cases hu : name = ".."
      · subst hu; exact hp.dropLast
      · rw [stepTo, if_neg hd, if_neg hu]
        exact hp.snoc hd hu (hl hd hu)
  | @link p name t _ _ _ _ _ _ _ _ _ _ ih₁ ih₂ =>
    refine ih₂ (ih₁ ?_)
    unfold targetStart
    split
    · exact isReal_root
    · exact hp

/-- A walk to a real place follows no link. -/
theorem IsReal.stretch (h : IsReal d (p ++ names)) :
    ∃ r, d.stretch true p names = .ended r ∧ r ≠ .error .tooManyLinks := by
  induction names generalizing p with
  | nil => exact ⟨_, rfl, by simp⟩
  | cons name rest ih =>
    have h' : IsReal d ((p ++ [name]) ++ rest) := by simpa using h
    obtain ⟨hd, hu⟩ := h.plain name (by simp)
    have hl := link?_eq_none_iff.1 (h'.noLink (p ++ [name]) (List.prefix_append _ _))
    obtain ⟨r, hr, hne⟩ := ih h'
    unfold Disk.stretch
    split
    · exact ⟨_, rfl, by simp⟩
    · exact ⟨_, rfl, by simp⟩
    · exact ⟨_, rfl, by simp⟩
    · rw [if_neg hd, if_neg hu]
      split
      · refine ⟨_, rfl, ?_⟩
        split <;> simp
      · rename_i t ht
        exact absurd ht (hl t)
      · exact ⟨r, hr, hne⟩

theorem IsReal.stat_ne (h : IsReal d p) : d.stat ⟨.slash, p⟩ ≠ .error .tooManyLinks := by
  obtain ⟨r, hr, hne⟩ := IsReal.stretch (p := []) h
  have hwalk : d.walk true ⟨.slash, p⟩ = r := by
    have hstart : d.startOf ⟨.slash, p⟩ = [] := rfl
    rw [walk, hstart, linkLimit, walkFrom, hr]
  unfold stat
  rw [hwalk]
  split
  · simp
  · simp
  · simpa using hne

/-- A path has the real path that it resolves to. -/
theorem Resolves.realPath (ht : IsTree d) (h : Resolves d (d.startOf path) path.parts u q)
    (hi : ∀ x ∈ path.parts, isImpossible x = false) : d.realPath path = .ok ⟨.slash, q⟩ := by
  have hpossible : ¬ path.parts.any isImpossible = true := by simpa using hi
  have hstat := (h.isReal (ht.isReal_startOf path)).stat_ne
  rw [Disk.realPath, if_neg hpossible, h.resolvePlace]
  dsimp only
  split
  · rename_i he
    exact absurd he hstat
  · rfl

/-- A path with a real path has names that files can have. -/
theorem possible_of_realPath {real : Path} (h : d.realPath path = .ok real) :
    ∀ x ∈ path.parts, isImpossible x = false := by
  unfold realPath at h
  split at h
  · cases h
  · rename_i hi
    simpa using hi

/-! ## Paths that lead somewhere -/

/-- A path is resolved to the place that it leads to. -/
theorem Leads.resolvePlace (ht : IsTree d) (h : Leads d (d.startOf path) path.parts u q) :
    d.resolvePlace path = q :=
  (h.resolves ht).resolvePlace

theorem Leads.realPath (ht : IsTree d) (h : Leads d (d.startOf path) path.parts u q) :
    d.realPath path = .ok ⟨.slash, q⟩ :=
  (h.resolves ht).realPath ht (h.possible ht)

end TableRoster.Disk
