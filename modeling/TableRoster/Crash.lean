/-! # Unplanned ends

What ends the program without being one of its own failures. -/

namespace TableRoster

/-- Why the file system refuses an operation. -/
inductive FileFault
  | missing
  | notFolder
  | isFolder
  | exists
  | tooManyLinks
  deriving DecidableEq, Repr

def FileFault.text : FileFault → String
  | .missing => "No such file or directory"
  | .notFolder => "Not a directory"
  | .isFolder => "Is a directory"
  | .exists => "File exists"
  | .tooManyLinks => "Too many levels of symbolic links"

/-- An end that the program does not plan for. -/
inductive Crash
  | badPattern
  /-- A value of the right kind is out of its range. -/
  | badValue
  | largeCount
  | badKeys
  | noCharacter
  /-- A tag names a form that its value does not have. -/
  | badTag
  | badForm
  | undecodable
  | linkLoop
  | file (f : FileFault)
  deriving DecidableEq, Repr

def Crash.text : Crash → String
  | .badPattern => "A name pattern is no regular expression"
  | .badValue => "A value is out of its range"
  | .largeCount => "A count is too large"
  | .badKeys => "Keys that are no texts cannot be told apart"
  | .noCharacter => "A number has no character"
  | .badTag => "A tag does not fit its value"
  | .badForm => "A value does not have the form of its tag"
  | .undecodable => "A settings file is not in UTF-8"
  | .linkLoop => "A link leads back to itself"
  | .file f => f.text

end TableRoster
