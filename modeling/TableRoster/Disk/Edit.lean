import TableRoster.Disk.Walk

/-! # Edits of a disk -/

namespace TableRoster.Disk

/-! ## Folders -/

/-- Makes one folder, in a folder that is there. -/
def makeFolder (d : Disk) (path : Path) : Except FileFault Disk :=
  match d.walk false path with
  | .error f => .error f
  | .ok ⟨_, some _⟩ => .error .exists
  | .ok ⟨p, none⟩ => .ok (d.put p .folder)

/-- Makes the folder with given names, last name first, and those above it. What was made before a
fault stays. -/
def makeFoldersOf (root : Root) : (names : List String) → Disk → Except FileFault Unit × Disk
  | names, d =>
    let path : Path := ⟨root, names.reverse⟩
    match d.makeFolder path with
    | .ok d' => (.ok (), d')
    | .error .missing =>
      match names with
      | [] => (.error .missing, d)
      | _ :: above =>
        match makeFoldersOf root above d with
        | (.error f, d') => (.error f, d')
        | (.ok (), d') =>
          match d'.makeFolder path with
          | .ok d'' => (.ok (), d'')
          | .error .missing => (.error .missing, d')
          | .error f => (if d'.isFolder path then .ok () else .error f, d')
    | .error f => (if d.isFolder path then .ok () else .error f, d)

/-- Makes a folder and those above it; a folder that is there stays. -/
def makeFolders (d : Disk) (path : Path) : Except FileFault Unit × Disk :=
  makeFoldersOf path.root path.parts.reverse d

/-! ## Files -/

def remove (d : Disk) (path : Path) : Except FileFault Disk :=
  match d.walk false path with
  | .error f => .error f
  | .ok ⟨_, none⟩ => .error .missing
  | .ok ⟨_, some .folder⟩ => .error .isFolder
  | .ok ⟨p, some _⟩ => .ok (d.erase p)

/-- Moves the file or link at a place to where a path leads. It takes the place of a file or a
link, but not of a folder. -/
def moveTo (d : Disk) (p : Place) (n : Node) (path : Path) : Except FileFault Disk :=
  match d.walk false path with
  | .error f => .error f
  | .ok ⟨_, some .folder⟩ => .error .isFolder
  | .ok ⟨q, _⟩ => .ok ((d.erase p).put q n)

/-- Writes a file; a link at the end of the path is followed. -/
def write (d : Disk) (path : Path) (bytes : ByteArray) : Except FileFault Disk :=
  match d.walk true path with
  | .error f => .error f
  | .ok ⟨_, some .folder⟩ => .error .isFolder
  | .ok ⟨p, _⟩ => .ok (d.writeAt p bytes)

end TableRoster.Disk
