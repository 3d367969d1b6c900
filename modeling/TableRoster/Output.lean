import TableRoster.Disk.Change
import TableRoster.Disk.Edit

/-! # The file of the aggregate module

It is written as a whole: to a file of its own beside it, which then takes its place. -/

namespace TableRoster.Output

/-- Who may read and write the file. -/
def mode : Nat := 0o644

def read? (path : Path) (d : Disk) : Telling (Option String) :=
  if d.isFile path then
    match d.text path with
    | .ok s => pure (some s)
    | .error o => Telling.fail (.outputUnreadable path o)
  else pure none

/-- The names that a file of its own is given, the first that is free. There are more of them than
places on the disk. -/
def temporaryNames (d : Disk) : List String :=
  (List.range (d.nodes.length + 1)).map fun n => ".schemagen_" ++ toString n ++ ".tmp"

/-- The first free place in a folder. -/
def freePlace (d : Disk) (folder : Path) : List String → Except FileFault Place
  | [] => .error .exists
  | name :: names =>
    match d.walk false (folder.child name) with
    | .error f => .error f
    | .ok ⟨p, none⟩ => .ok p
    | .ok ⟨_, some _⟩ => freePlace d folder names

/-- A place for a file of its own beside a path. The folder is taken by its name alone. -/
def temporary (d : Disk) (path : Path) : Except FileFault Place :=
  freePlace d ⟨.slash, path.parent.absoluteParts d.here⟩ (temporaryNames d)

/-- A text is a row of characters here, so it can always be encoded. -/
def write (path : Path) (content : String) : Change Unit := fun d =>
  match d.makeFolders path.parent with
  | (.error f, d) => (Telling.fail (.folderUncreatable path.parent (.file f)), d)
  | (.ok (), d) =>
    match temporary d path with
    | .error f => (Telling.fail (.outputUnwritable path (.file f)), d)
    | .ok p =>
      let full := d.writeAt p content.toUTF8
      match full.moveTo p (.file content.toUTF8 d.now) path with
      | .error f =>
        (do
          Telling.tell (.writeFailed path (.file f))
          Telling.fail (.outputUnwritable path (.file f)), full.erase p)
      | .ok done => (Telling.tell (.written path content.utf8ByteSize), done)

def remove (path : Path) : Change Bool := fun d =>
  if d.isThere path then
    match d.remove path with
    | .error f => (Telling.fail (.outputUnremovable path (.file f)), d)
    | .ok done =>
      (do
        Telling.tell (.removed path)
        pure true, done)
  else (pure false, d)

end TableRoster.Output
