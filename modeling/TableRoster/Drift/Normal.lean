import TableRoster.Layout
import TableRoster.Text.Blank
import TableRoster.Text.Lines

/-! # What is compared of an aggregate module

The line with the time is left out, line ends are made alike, and blanks at the two ends do not
count. -/

namespace TableRoster.Drift

def isIndent (c : Char) : Bool :=
  c == ' ' || c == '\t'

/-- A line with the time: a star, and the label behind it. -/
def isStampLine (line : List Char) : Bool :=
  match line.dropWhile isIndent with
  | '*' :: r => Layout.stampLabel.toList.isPrefixOf (r.dropWhile isIndent)
  | _ => false

/-- A text without the first line with a time. -/
def dropStamp (s : List Char) : List Char :=
  ['\n'].intercalate ((Text.splitAt '\n' s).eraseP isStampLine)

/-- What is compared of a text. -/
def normal (content : String) : String :=
  String.ofList (Text.trim (dropStamp (Text.unifyLineEnds content.toList)))

end TableRoster.Drift
