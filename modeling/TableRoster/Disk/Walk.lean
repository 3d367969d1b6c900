import TableRoster.Crash
import TableRoster.Disk.Basic

/-! # Walking to a place

A path is followed name by name from a folder on. Links on the way are followed, forty of them at
most; `..` leads to the folder above. A last name with nothing behind it still has a place, where a
file could be made. -/

namespace TableRoster.Disk

def linkLimit : Nat := 40

/-- The names that a link's target leads through. A slash at the end asks for a folder. -/
def targetNames (target : String) : List String :=
  Path.partsOf target.toList
    ++ if ['/'].isSuffixOf target.toList ∨ ['/', '.'].isSuffixOf target.toList then ["."] else []

/-- Where a link's target starts from, for a link in a folder. -/
def targetStart (folder : Place) (target : String) : Place :=
  if ['/'].isPrefixOf target.toList then [] else folder

/-- The end of a walk: a place, and whether there is something. -/
structure Arrival where
  place : Place
  node : Option Node
  deriving DecidableEq

/-- How a walk goes on until it has a link to follow: it ends, or the names of the link's target
come before those that are left. -/
inductive Stretch
  | ended (result : Except FileFault Arrival)
  | atLink (start : Place) (names : List String)

/-- Walks from a place along names up to a link that has to be followed. A link at the end has to be
followed if `follow` holds. -/
def stretch (d : Disk) (follow : Bool) : Place → List String → Stretch
  | p, [] => .ended (.ok ⟨p, d.node? p⟩)
  | p, name :: rest =>
    match d.node? p with
    | none => .ended (.error .missing)
    | some (.file ..) | some (.link _) => .ended (.error .notFolder)
    | some .folder =>
      if name = "." then stretch d follow p rest
      else if name = ".." then stretch d follow p.dropLast rest
      else
        match d.node? (p ++ [name]) with
        | none => .ended (if rest = [] then .ok ⟨p ++ [name], none⟩ else .error .missing)
        | some (.link target) =>
          if rest = [] ∧ !follow then .ended (.ok ⟨p ++ [name], some (.link target)⟩)
          else .atLink (targetStart p target) (targetNames target ++ rest)
        | some _ => stretch d follow (p ++ [name]) rest

/-- Walks from a place along names, with a budget of links. -/
def walkFrom (d : Disk) (follow : Bool) : (budget : Nat) → Place → List String →
    Except FileFault Arrival
  | 0, p, names =>
    match d.stretch follow p names with
    | .ended r => r
    | .atLink .. => .error .tooManyLinks
  | budget + 1, p, names =>
    match d.stretch follow p names with
    | .ended r => r
    | .atLink start names => walkFrom d follow budget start names

/-- The folder that a path is taken from. -/
def startOf (d : Disk) (path : Path) : Place :=
  if path.isAbsolute then [] else d.here

def walk (d : Disk) (follow : Bool) (path : Path) : Except FileFault Arrival :=
  d.walkFrom follow linkLimit (d.startOf path) path.parts

def stat (d : Disk) (path : Path) : Except FileFault (Place × Node) :=
  match d.walk true path with
  | .ok ⟨p, some n⟩ => .ok (p, n)
  | .ok ⟨_, none⟩ => .error .missing
  | .error f => .error f

def isThere (d : Disk) (path : Path) : Bool :=
  match d.stat path with
  | .ok _ => true
  | .error _ => false

def isFolder (d : Disk) (path : Path) : Bool :=
  match d.stat path with
  | .ok (_, .folder) => true
  | _ => false

def isFile (d : Disk) (path : Path) : Bool :=
  match d.stat path with
  | .ok (_, .file ..) => true
  | _ => false

/-- The time of the last change of what a path leads to. Folders have no time of their own here. -/
def modified? (d : Disk) (path : Path) : Option Int :=
  match d.stat path with
  | .ok (_, .file _ t) => some t
  | _ => none

def bytes (d : Disk) (path : Path) : Except FileFault ByteArray :=
  match d.stat path with
  | .ok (_, .file bs _) => .ok bs
  | .ok _ => .error .isFolder
  | .error f => .error f

/-- The paths in a folder, in order. -/
def childrenOf (d : Disk) (path : Path) : Except FileFault (List Path) :=
  match d.stat path with
  | .ok (p, .folder) => .ok (Path.sort ((d.namesIn p).map path.child))
  | .ok _ => .error .notFolder
  | .error f => .error f

/-- A path as seen from the root, as far as no file has to be looked at. -/
def absolute (d : Disk) (path : Path) : Path :=
  if path.isAbsolute then path else ⟨.slash, d.here ++ path.parts⟩

end TableRoster.Disk
