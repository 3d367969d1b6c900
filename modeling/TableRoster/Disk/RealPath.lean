import TableRoster.Disk.Walk

/-! # Real paths

A real path has no links, no `..` and no `.`. It need not lead to anything: names behind the last
one that is there stay as they are, and `..` takes back the name before it. -/

namespace TableRoster.Disk

inductive Resolution
  | real (p : Place)
  /-- A link that leads back to itself, with the names that follow it. -/
  | loop (names : List String)

def link? (d : Disk) (p : Place) : Option String :=
  match d.node? p with
  | some (.link t) => some t
  | _ => none

/-- Resolves names from a real place on. The links that are being resolved are `active`; `follow`
resolves the target of any other link. -/
def resolveAlong (d : Disk) (active : List Place) (follow : Place → String → Resolution) :
    Place → List String → Resolution
  | p, [] => .real p
  | p, name :: rest =>
    if name = "." then resolveAlong d active follow p rest
    else if name = ".." then resolveAlong d active follow p.dropLast rest
    else
      match d.link? (p ++ [name]) with
      | none => resolveAlong d active follow (p ++ [name]) rest
      | some target =>
        if p ++ [name] ∈ active then .loop (p ++ name :: rest)
        else
          match follow (p ++ [name]) target with
          | .loop names => .loop (names ++ rest)
          | .real q => resolveAlong d active follow q rest

/-- Resolves names from a real place on, with links in links as deep as the fuel. -/
def resolveFrom (d : Disk) : (fuel : Nat) → (active : List Place) → Place → List String → Resolution
  | 0, active, p, names => d.resolveAlong active (fun link _ => .loop link) p names
  | fuel + 1, active, p, names =>
    d.resolveAlong active (fun link target =>
      resolveFrom d fuel (link :: active) (targetStart link.dropLast target)
        (Path.partsOf target.toList)) p names

/-- The place of a path, links followed as far as they lead anywhere. -/
def resolvePlace (d : Disk) (path : Path) : Place :=
  match d.resolveFrom d.linkCount [] (d.startOf path) path.parts with
  | .real p => p
  | .loop names => Path.normalParts names

/-- A name that no file can have. -/
def isImpossible (name : String) : Bool :=
  name.toList.contains '\x00'

/-- The real path of a path. A link that leads back to itself ends the program. -/
def realPath (d : Disk) (path : Path) : Except Crash Path :=
  if path.parts.any isImpossible then .error .badValue
  else
    let real : Path := ⟨.slash, d.resolvePlace path⟩
    match d.stat real with
    | .error .tooManyLinks => .error .linkLoop
    | _ => .ok real

end TableRoster.Disk
