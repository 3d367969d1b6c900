import TableRoster.Proofs.Disk.Rewrite

/-! # Entries in another order

The entries of a disk are listed in some order. In another order all paths lead to where they led, and
folders have the names that they had. -/

namespace TableRoster.Disk

/-- The same entries, listed in another order. -/
structure Relisted (d d' : Disk) : Prop where
  nodes : d'.nodes.Perm d.nodes
  here : d'.here = d.here

namespace Relisted

variable {d d' : Disk}

theorem node?_eq (h : Relisted d d') (ht : IsTree d) (p : Place) : d'.node? p = d.node? p := by
  by_cases hp : p = []
  · simp [hp]
  cases hn : d'.node? p with
  | none =>
    rw [node?_eq_none_iff hp] at hn
    exact ((node?_eq_none_iff hp).2 fun e he => hn e (h.nodes.mem_iff.2 he)).symm
  | some n =>
    have hmem := h.nodes.mem_iff.1 (mem_nodes_of_node? hp hn)
    exact ((ht.node?_eq_some_iff hp).2 hmem).symm

theorem linkCount (h : Relisted d d') : d'.linkCount = d.linkCount :=
  h.nodes.countP_eq _

theorem depth (h : Relisted d d') : d'.depth = d.depth :=
  (h.nodes.map _).foldl_eq 0

theorem namesIn (h : Relisted d d') (p : Place) : (d'.namesIn p).Perm (d.namesIn p) :=
  h.nodes.filterMap _

theorem alike (h : Relisted d d') (ht : IsTree d) : Alike d d' :=
  fun p => .inl (h.node?_eq ht p)

theorem grown (h : Relisted d d') (ht : IsTree d) (out : Place) : Grown out d d' :=
  ⟨h.here, h.linkCount, fun p => .inl (h.node?_eq ht p)⟩

theorem childrenOf (h : Relisted d d') (ht : IsTree d) : d'.childrenOf = d.childrenOf :=
  funext ((h.alike ht).childrenOf h.here h.namesIn)

theorem realPath (h : Relisted d d') (ht : IsTree d) : d'.realPath = d.realPath :=
  funext fun path => (h.alike ht).realPath h.here ((h.grown ht []).resolvePlace_eq path)

end Relisted

end TableRoster.Disk
