import TableRoster.Value.Key
import TableRoster.Yaml.Binary
import TableRoster.Yaml.Document
import TableRoster.Yaml.Merge
import TableRoster.Yaml.Number

/-! # Values of settings files

Nodes become values level by level: of several faults the one on the highest level counts, and of
those on one level the first. -/

namespace TableRoster.Yaml

/-- A fault, and the level on which it is found. -/
structure Late where
  level : Nat
  fault : Fault

abbrev Build := Except Late

namespace Build

def onLevel (level : Nat) (r : Except Fault α) : Build α :=
  r.mapError fun f => ⟨level, f⟩

/-- Both values, or the fault that counts. -/
def both (a : Build α) (b : Build β) : Build (α × β) :=
  match a, b with
  | .ok x, .ok y => .ok (x, y)
  | .error e, .ok _ => .error e
  | .ok _, .error f => .error f
  | .error e, .error f => if f.level < e.level then .error f else .error e

/-- All values, or the fault that counts. -/
def all : List (Build α) → Build (List α)
  | [] => .ok []
  | b :: bs => (both b (all bs)).map fun p => p.1 :: p.2

end Build

/-! ## Scalars -/

/-- The words for true and false, in lower case. -/
def flagValues : List (String × Bool) :=
  [("yes", true), ("no", false), ("true", true), ("false", false), ("on", true), ("off", false)]

/-- A result that can only crash. -/
def orCrash (r : Except Crash α) : Except Fault α :=
  r.mapError Fault.crash

def scalarValue (tag : Tag) (text : String) : Except Fault Value :=
  match tag with
  | .null => .ok .null
  | .flag =>
    match flagValues.lookup (String.ofList (text.toList.map Char.toLower)) with
    | some b => .ok (.flag b)
    | none => .error (.crash .badTag)
  | .int => orCrash ((Number.int text.toList).map .int)
  | .float => orCrash ((Number.float text.toList).map .float)
  | .binary =>
    match Binary.bytes? text.toList with
    | some bs => .ok (.bytes bs)
    | none => .error .malformed
  | .time =>
    let cs := text.toList
    match Moment.ofText? (if cs.getLast? = some '\n' then cs.dropLast else cs) with
    | some m => orCrash m.value
    | none => .error (.crash .badForm)
  | .text => .ok (.text text)
  | _ => .error .malformed

namespace Tag

/-- Values with this tag are made of others. -/
def isCompound : Tag → Bool
  | .orderedMap | .pairs | .set | .list | .map => true
  | _ => false

end Tag

/-! ## All nodes -/

namespace Node

mutual

/-- The text of a scalar, or of the scalar that a mapping stands for. -/
def scalarText? : Node → Option String
  | .scalar _ s => some s
  | .map _ es => scalarTextIn? es
  | _ => none

def scalarTextIn? : List (Node × Node) → Option String
  | [] => none
  | (k, v) :: es => if k.tag = .value then scalarText? v else scalarTextIn? es

end

mutual

def depth : Node → Nat
  | .list _ ns => depthAll ns + 1
  | .map _ es => depthEntries es + 1
  | _ => 1

def depthAll : List Node → Nat
  | [] => 0
  | n :: ns => max (depth n) (depthAll ns)

def depthEntries : List (Node × Node) → Nat
  | [] => 0
  | (k, v) :: es => max (max (depth k) (depth v)) (depthEntries es)

end

/-- The value of a node that stands for a scalar. -/
def scalarOf (level : Nat) (n : Node) : Build Value :=
  .onLevel level <|
    match n.scalarText? with
    | none => .error .malformed
    | some s =>
      match n with
      | .map .time _ => .error (.crash .badKeys)
      | n => scalarValue n.tag s

/-- A mapping of built entries: a later value of a key replaces the one before. -/
def mapOf (es : List (Value × Value)) : List (Value × Value) :=
  es.foldl (fun m e => Value.putKey m e.1 e.2) []

def build : (fuel : Nat) → (level : Nat) → Node → Build Value
  | 0, level, _ => .error ⟨level, .malformed⟩
  | _, _, .again isMap isRoot => .ok (.again isMap isRoot)
  | fuel + 1, level, n =>
    let bad : Build Value := .error ⟨level + 1, .malformed⟩
    let entry (e : Node × Node) : Build (Value × Value) :=
      .both (if e.1.tag.isCompound then .error ⟨level + 1, .malformed⟩
        else e.1.build fuel (level + 1)) (e.2.build fuel (level + 1))
    let entries (es : List (Node × Node)) : Build (List (Value × Value)) :=
      match mergedEntries es with
      | some es => (Build.all (es.map entry)).map mapOf
      | none => .error ⟨level + 1, .malformed⟩
    let pair (m : Node) : Build Value :=
      match m with
      | .map _ [(k, v)] =>
        (Build.both (k.build fuel (level + 1)) (v.build fuel (level + 1))).map fun p =>
          .pair p.1 p.2
      | _ => .error ⟨level + 1, .malformed⟩
    match n.tag, n with
    | .list, .list _ ns => (Build.all (ns.map fun m => m.build fuel (level + 1))).map .list
    | .orderedMap, .list _ ns | .pairs, .list _ ns => (Build.all (ns.map pair)).map .list
    | .map, .map _ es => (entries es).map .map
    | .set, .map _ es => (entries es).map fun es => .set (es.map (·.1))
    | t, n => if t.isCompound then bad else n.scalarOf level

end Node

/-- The value that a text writes; nothing is the value of an empty text. -/
def read (s : String) : Except Fault Value := do
  match ← nodeOf s with
  | none => pure .null
  | some n => (n.build (n.depth + 1) 0).mapError (·.fault)

end TableRoster.Yaml
