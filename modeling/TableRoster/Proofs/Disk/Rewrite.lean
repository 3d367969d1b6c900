import TableRoster.Proofs.Disk.Growth
import TableRoster.Proofs.Path

/-! # Files that are written anew

Where a file gets other bytes and another time, paths lead to where they led, and folders have the
names that they had. -/

namespace TableRoster.Disk

/-- A file is written anew by others, who may take their time. -/
def rewrite (d : Disk) (q : Place) (bytes : ByteArray) (modified now : Int) : Disk :=
  { d.put q (.file bytes modified) with now := now }

variable {d : Disk} {p q : Place} {path : Path} {names : List String} {follow : Bool} {b : Nat}
  {bytes : ByteArray} {modified now : Int}

theorem IsFileAt.ne_nil (h : d.IsFileAt q) : q ≠ [] := by
  rintro rfl
  obtain ⟨bytes, time, h⟩ := h
  simp at h

theorem node?_rewrite (h : d.IsFileAt q) (bytes : ByteArray) (modified now : Int) :
    (d.rewrite q bytes modified now).node? p
      = if p = q then some (.file bytes modified) else d.node? p :=
  node?_put h.ne_nil

theorem node?_rewrite_of_not_file (h : d.IsFileAt q) (hp : ¬ d.IsFileAt p) :
    (d.rewrite q bytes modified now).node? p = d.node? p := by
  rw [node?_rewrite h, if_neg]
  rintro rfl
  exact hp h

theorem IsFileAt.rewrite (h : d.IsFileAt q) (hp : d.IsFileAt p) :
    (d.rewrite q bytes modified now).IsFileAt p := by
  obtain ⟨bs, t, hn⟩ := hp
  by_cases he : p = q
  · exact ⟨bytes, modified, by rw [node?_rewrite h, if_pos he]⟩
  · exact ⟨bs, t, by rw [node?_rewrite h, if_neg he, hn]⟩

/-! ## The tree -/

theorem IsTree.rewrite (ht : IsTree d) (h : d.IsFileAt q) (bytes : ByteArray) (modified now : Int) :
    IsTree (d.rewrite q bytes modified now) := by
  obtain ⟨p, name, rfl⟩ := (List.eq_nil_or_concat' q).resolve_left h.ne_nil
  have hnf := h.ne_folder
  obtain ⟨bs, t, hn⟩ := h
  exact (ht.put (ht.folder_of_snoc hn) (ht.isName_of_snoc hn) (.inr hnf)).set_now now

theorem grown_rewrite (ht : IsTree d) (h : d.IsFileAt q) (bytes : ByteArray) (modified now : Int) :
    Grown q d (d.rewrite q bytes modified now) := by
  obtain ⟨p, name, rfl⟩ := (List.eq_nil_or_concat' q).resolve_left h.ne_nil
  exact (Grown.put_file bytes modified ht h.ne_folder h.link?).set_now now

theorem places_rewrite (ht : IsTree d) (h : d.IsFileAt q) (bytes : ByteArray) (modified now : Int) :
    ((d.rewrite q bytes modified now).nodes.map (·.1)).Perm (d.nodes.map (·.1)) := by
  have hmem : ∀ {d : Disk}, IsTree d → ∀ p, p ∈ d.nodes.map (·.1) ↔ p ≠ [] ∧ d.node? p ≠ none := by
    intro d ht p
    constructor
    · rintro hp
      obtain ⟨e, he, rfl⟩ := List.mem_map.1 hp
      exact ⟨(ht.inFolder e he).1, by rw [(ht.node?_eq_some_iff (ht.inFolder e he).1).2 he]; simp⟩
    · rintro ⟨hne, hp⟩
      obtain ⟨n, hn⟩ := Option.ne_none_iff_exists'.1 hp
      exact List.mem_map.2 ⟨_, mem_nodes_of_node? hne hn, rfl⟩
  have ht' := ht.rewrite h bytes modified now
  rw [List.perm_ext_iff_of_nodup ht'.nodup ht.nodup]
  intro p
  rw [hmem ht', hmem ht, node?_rewrite h]
  obtain ⟨bs, t, hn⟩ := h
  split <;> simp_all

theorem depth_rewrite (ht : IsTree d) (h : d.IsFileAt q) :
    (d.rewrite q bytes modified now).depth = d.depth := by
  have hdepth : ∀ d : Disk, d.depth = ((d.nodes.map (·.1)).map List.length).foldl max 0 := by
    intro d
    rw [List.map_map]
    rfl
  rw [hdepth, hdepth]
  exact ((places_rewrite ht h bytes modified now).map _).foldl_eq 0

theorem namesIn_rewrite (ht : IsTree d) (h : d.IsFileAt q) (p : Place) :
    ((d.rewrite q bytes modified now).namesIn p).Perm (d.namesIn p) := by
  have hnames : ∀ d : Disk, d.namesIn p = (d.nodes.map (·.1)).filterMap
      fun r => if r.dropLast = p then r.getLast? else none := by
    intro d
    simp [namesIn, List.filterMap_map]
  rw [hnames, hnames]
  exact (places_rewrite ht h bytes modified now).filterMap _

/-! ## Walks -/

/-- Disks that are the same apart from what files hold. -/
def Alike (d d' : Disk) : Prop :=
  ∀ p, d'.node? p = d.node? p ∨ d.IsFileAt p ∧ d'.IsFileAt p

theorem alike_rewrite (h : d.IsFileAt q) (bytes : ByteArray) (modified now : Int) :
    Alike d (d.rewrite q bytes modified now) := by
  intro p
  by_cases hp : d.IsFileAt p
  · exact .inr ⟨hp, h.rewrite hp⟩
  · exact .inl (node?_rewrite_of_not_file h hp)

/-- A walk arrives at a place, whatever is there. -/
def Arrival.on (d : Disk) (a : Arrival) : Arrival :=
  ⟨a.place, d.node? a.place⟩

def Stretch.on (d : Disk) : Stretch → Stretch
  | .ended r => .ended (r.map (·.on d))
  | .atLink start names => .atLink start names

namespace Alike

variable {d' : Disk}

theorem refl (d : Disk) : Alike d d :=
  fun _ => .inl rfl

theorem stretch (h : Alike d d') : d'.stretch follow p names = (d.stretch follow p names).on d' := by
  induction names generalizing p with
  | nil => rfl
  | cons name rest ih =>
    obtain he | ⟨⟨bs, t, hn⟩, bs', t', hn'⟩ := h p
    · unfold Disk.stretch
      rw [he]
      cases d.node? p with
      | none => rfl
      | some n =>
        cases n with
        | file | link => rfl
        | folder =>
          dsimp only
          split
          · exact ih
          · split
            · exact ih
            · obtain he | ⟨⟨bs, t, hn⟩, bs', t', hn'⟩ := h (p ++ [name])
              · rw [he]
                cases hn : d.node? (p ++ [name]) with
                | none =>
                  dsimp only
                  split <;> simp [Stretch.on, Except.map, Arrival.on, he, hn]
                | some n =>
                  cases n with
                  | link target =>
                    dsimp only
                    split <;> simp [Stretch.on, Except.map, Arrival.on, he, hn]
                  | _ => exact ih
              · rw [hn, hn']
                exact ih
    · simp [Disk.stretch, hn, hn', Stretch.on, Except.map]

theorem walkFrom (h : Alike d d') :
    d'.walkFrom follow b p names = (d.walkFrom follow b p names).map (·.on d') := by
  induction b generalizing p names with
  | zero =>
    unfold Disk.walkFrom
    rw [h.stretch]
    cases d.stretch follow p names <;> rfl
  | succ b ih =>
    unfold Disk.walkFrom
    rw [h.stretch]
    cases d.stretch follow p names with
    | ended r => rfl
    | atLink start names => exact ih

/-- A path leads to where it led. -/
theorem stat_cases (h : Alike d d') (hh : d'.here = d.here) (path : Path) :
    d'.stat path = d.stat path
      ∨ ∃ p bs t bs' t', d.stat path = .ok (p, .file bs t) ∧ d.node? p = some (.file bs t)
        ∧ d'.stat path = .ok (p, .file bs' t') ∧ d'.node? p = some (.file bs' t') := by
  have hw : d'.walk true path = (d.walk true path).map (·.on d') := by
    simp only [walk, startOf, hh, h.walkFrom]
  have hself : d.walk true path = (d.walk true path).map (·.on d) := (refl d).walkFrom
  unfold stat
  rw [hw]
  cases hd : d.walk true path with
  | error f => exact .inl rfl
  | ok a =>
    obtain ⟨p, n⟩ := a
    simp only [hd, Except.map, Arrival.on, Except.ok.injEq, Arrival.mk.injEq, true_and] at hself ⊢
    subst hself
    obtain he | ⟨⟨bs, t, hn⟩, bs', t', hn'⟩ := h p
    · exact .inl (by rw [he])
    · exact .inr ⟨p, bs, t, bs', t', by rw [hn], hn, by rw [hn'], hn'⟩

theorem isFolder (h : Alike d d') (hh : d'.here = d.here) (path : Path) :
    d'.isFolder path = d.isFolder path := by
  obtain he | ⟨p, bs, t, bs', t', hs, -, hs', -⟩ := h.stat_cases hh path
  · simp only [Disk.isFolder, he]
  · simp only [Disk.isFolder, hs, hs']

theorem isFile (h : Alike d d') (hh : d'.here = d.here) (path : Path) :
    d'.isFile path = d.isFile path := by
  obtain he | ⟨p, bs, t, bs', t', hs, -, hs', -⟩ := h.stat_cases hh path
  · simp only [Disk.isFile, he]
  · simp only [Disk.isFile, hs, hs']

/-- The order that names are listed in does not matter for what is in a folder. -/
theorem childrenOf (h : Alike d d') (hh : d'.here = d.here)
    (hn : ∀ p, (d'.namesIn p).Perm (d.namesIn p)) (path : Path) :
    d'.childrenOf path = d.childrenOf path := by
  obtain he | ⟨p, bs, t, bs', t', hs, -, hs', -⟩ := h.stat_cases hh path
  · unfold Disk.childrenOf
    rw [he]
    split
    · rw [Path.sort_children (hn _)]
    · rfl
    · rfl
  · simp only [Disk.childrenOf, hs, hs']

theorem realPath (h : Alike d d') (hh : d'.here = d.here)
    (hr : d'.resolvePlace path = d.resolvePlace path) : d'.realPath path = d.realPath path := by
  unfold Disk.realPath
  dsimp only
  rw [hr]
  obtain he | ⟨p, bs, t, bs', t', hs, -, hs', -⟩ := h.stat_cases hh ⟨.slash, d.resolvePlace path⟩
  · rw [he]
  · simp only [hs, hs']

end Alike

/-! ## What paths lead to -/

variable (h : d.IsFileAt q)

include h

theorem isFolder_rewrite (path : Path) :
    (d.rewrite q bytes modified now).isFolder path = d.isFolder path :=
  (alike_rewrite h bytes modified now).isFolder rfl path

theorem isFile_rewrite (path : Path) :
    (d.rewrite q bytes modified now).isFile path = d.isFile path :=
  (alike_rewrite h bytes modified now).isFile rfl path

/-- Another file stays as it is. -/
theorem stat_rewrite_of_ne {n : Node} (hs : d.stat path = .ok (p, n)) (hp : p ≠ q) :
    (d.rewrite q bytes modified now).stat path = .ok (p, n) := by
  obtain he | ⟨p', bs, t, bs', t', hs', hn, hstat, hn'⟩ :=
    (alike_rewrite h bytes modified now).stat_cases rfl path
  · rw [he, hs]
  · obtain ⟨rfl, rfl⟩ := Prod.mk.inj (Except.ok.inj (hs.symm.trans hs'))
    rw [node?_rewrite h, if_neg hp, hn] at hn'
    rw [hstat, ← Option.some.inj hn']

theorem modified?_rewrite (ht : IsTree d) {n : Node} (hs : d.stat path = .ok (q, n)) :
    (d.rewrite q bytes modified now).modified? path = some modified := by
  obtain ⟨u, hq, hu, -⟩ := (stat_eq_ok_iff ht).1 hs
  have hnode := node?_rewrite (p := q) h bytes modified now
  rw [if_pos rfl] at hnode
  have hs' := (stat_eq_ok_iff (ht.rewrite h bytes modified now)).2
    ⟨u, (grown_rewrite ht h bytes modified now).leads_path hq, hu, hnode⟩
  simp only [modified?, hs']

theorem childrenOf_rewrite (ht : IsTree d) (path : Path) :
    (d.rewrite q bytes modified now).childrenOf path = d.childrenOf path :=
  (alike_rewrite h bytes modified now).childrenOf rfl (namesIn_rewrite ht h) path

theorem realPath_rewrite (ht : IsTree d) (path : Path) :
    (d.rewrite q bytes modified now).realPath path = d.realPath path :=
  (alike_rewrite h bytes modified now).realPath rfl
    ((grown_rewrite ht h bytes modified now).resolvePlace_eq path)

end TableRoster.Disk
