import TableRoster.Disk.Walk
import TableRoster.Failure

/-! # Texts of files -/

namespace TableRoster.Disk

/-- The text of bytes in UTF-8, with all line ends made alike. -/
def textOf (bytes : ByteArray) : Except Origin String :=
  match String.fromUTF8? bytes with
  | some s => .ok (String.ofList (Text.unifyLineEnds s.toList))
  | none => .error .encoding

def text (d : Disk) (path : Path) : Except Origin String :=
  match d.bytes path with
  | .ok bs => textOf bs
  | .error f => .error (.file f)

end TableRoster.Disk
