import TableRoster.Yaml.Node

/-! # Merged entries

The value of the merge key is a mapping, or a list of mappings, whose entries go before those of the
mapping itself; of a list, the last mapping goes first. An entry that comes later wins. -/

namespace TableRoster.Yaml.Node

/-- A key whose tag asks for the value of a mapping is a text. -/
def plainKey : Node → Node
  | .scalar .value text => .scalar .text text
  | n => n

/-- The entries of a mapping other than its merge keys. -/
def ownEntries (es : List (Node × Node)) : List (Node × Node) :=
  (es.filter fun e => e.1.tag ≠ .merge).map fun e => (plainKey e.1, e.2)

mutual

/-- The entries of a mapping to merge; nothing if it is none. -/
def mergedMap : Node → Option (List (Node × Node))
  | .map _ es => (mergedFrom es).map (· ++ ownEntries es)
  | .again true _ => some []
  | _ => none

/-- The entries of all mappings of a list, the last mapping first. -/
def mergedList : List Node → Option (List (Node × Node))
  | [] => some []
  | n :: ns => do
    let first ← mergedMap n
    let others ← mergedList ns
    pure (others ++ first)

/-- What the merge keys of a mapping bring; nothing if one of them has no mapping. -/
def mergedFrom : List (Node × Node) → Option (List (Node × Node))
  | [] => some []
  | (k, .list _ ns) :: es => do
    let here ← if k.tag = .merge then mergedList ns else pure []
    let others ← mergedFrom es
    pure (here ++ others)
  | (k, v) :: es => do
    let here ← if k.tag = .merge then mergedMap v else pure []
    let others ← mergedFrom es
    pure (here ++ others)

end

/-- The entries of a mapping, with what its merge keys bring before its own; nothing if a merge key
has no mapping. -/
def mergedEntries (es : List (Node × Node)) : Option (List (Node × Node)) :=
  (mergedFrom es).map (· ++ ownEntries es)

end TableRoster.Yaml.Node
