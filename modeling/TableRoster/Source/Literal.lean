import TableRoster.Text.Word

/-! # Where literals and comments end

Each function gets the text behind the opening of a literal or comment and returns what follows it.
An unclosed literal runs to the end of the text, except that a quoted string also ends before a line
break. A backslash hides the character behind it. -/

namespace TableRoster.Source

open Text

/-- What follows a string, from behind its opening quote. -/
def afterString (quote : Char) : List Char → List Char
  | [] => []
  | ['\\'] => []
  | '\\' :: _ :: r => afterString quote r
  | c :: r => if c = quote then r else if c = '\n' then c :: r else afterString quote r

/-- What follows a block comment, from behind its opening. -/
def afterComment : List Char → List Char
  | [] => []
  | '*' :: '/' :: r => r
  | _ :: r => afterComment r

/-- What follows the rest of a line; the line break is left. -/
def afterLine (s : List Char) : List Char :=
  s.dropWhile (· ≠ '\n')

/-- What follows a regular expression, from behind its opening slash, or nothing if a line ends
first. A slash between square brackets does not close it. -/
def afterRegex (inSet : Bool) : List Char → Option (List Char)
  | [] => none
  | ['\\'] => none
  | '\\' :: _ :: r => afterRegex inSet r
  | c :: r =>
    if c = '\n' then none
    else if inSet then afterRegex (c ≠ ']') r
    else if c = '/' then some (r.dropWhile isWord)
    else afterRegex (c = '[') r

/-! ## Templates -/

/-- What can be open within a template, an expression hole with its number of open braces
included. -/
inductive Frame
  | template
  | hole (braces : Nat)
  | string (quote : Char)
  | line
  | comment
  deriving DecidableEq

/-- What follows a template, given what is open, the innermost first. Inside a hole only strings,
templates, comments and braces are told apart. -/
def afterTemplate : List Frame → List Char → List Char
  | [], s => s
  | _ :: _, [] => []
  | .template :: _, ['\\'] => []
  | .template :: fs, '\\' :: _ :: r => afterTemplate (.template :: fs) r
  | .template :: fs, '$' :: '\x7b' :: r => afterTemplate (.hole 0 :: .template :: fs) r
  | .template :: fs, c :: r =>
    if c = '\x60' then afterTemplate fs r else afterTemplate (.template :: fs) r
  | .string _ :: _, ['\\'] => []
  | .string q :: fs, '\\' :: _ :: r => afterTemplate (.string q :: fs) r
  | .string q :: fs, c :: r =>
    if c = q ∨ c = '\n' then afterTemplate fs r else afterTemplate (.string q :: fs) r
  | .line :: fs, c :: r =>
    if c = '\n' then afterTemplate fs r else afterTemplate (.line :: fs) r
  | .comment :: fs, '*' :: '/' :: r => afterTemplate fs r
  | .comment :: fs, _ :: r => afterTemplate (.comment :: fs) r
  | .hole n :: fs, '/' :: '/' :: r => afterTemplate (.line :: .hole n :: fs) r
  | .hole n :: fs, '/' :: '*' :: r => afterTemplate (.comment :: .hole n :: fs) r
  | .hole n :: fs, c :: r =>
    if c = '\x27' ∨ c = '\x22' then afterTemplate (.string c :: .hole n :: fs) r
    else if c = '\x60' then afterTemplate (.template :: .hole n :: fs) r
    else if c = '\x7b' then afterTemplate (.hole (n + 1) :: fs) r
    else if c = '\x7d' then
      match n with
      | 0 => afterTemplate fs r
      | m + 1 => afterTemplate (.hole m :: fs) r
    else afterTemplate (.hole n :: fs) r

/-! ## What follows is a suffix -/

theorem afterString_suffix (q : Char) (s : List Char) : afterString q s <:+ s := by
  fun_induction afterString q s with
  | case1 => exact List.suffix_rfl
  | case2 => exact List.nil_suffix
  | case3 _ r ih => exact ih.trans ((List.suffix_cons _ _).trans (List.suffix_cons _ _))
  | case4 => exact List.suffix_cons _ _
  | case5 => exact List.suffix_rfl
  | case6 => rename_i ih; exact ih.trans (List.suffix_cons _ _)

theorem afterComment_suffix (s : List Char) : afterComment s <:+ s := by
  fun_induction afterComment s with
  | case1 => exact List.suffix_rfl
  | case2 r => exact (List.suffix_cons _ _).trans (List.suffix_cons _ _)
  | case3 _ _ _ ih => exact ih.trans (List.suffix_cons _ _)

theorem afterLine_suffix (s : List Char) : afterLine s <:+ s :=
  List.dropWhile_suffix _

theorem afterRegex_suffix {k : Bool} {s r : List Char} (h : afterRegex k s = some r) : r <:+ s := by
  fun_induction afterRegex k s with
  | case1 => cases h
  | case2 => cases h
  | case3 _ _ _ ih => exact (ih h).trans ((List.suffix_cons _ _).trans (List.suffix_cons _ _))
  | case4 => cases h
  | case5 => rename_i ih; exact (ih h).trans (List.suffix_cons _ _)
  | case6 =>
    cases h
    exact (List.dropWhile_suffix _).trans (List.suffix_cons _ _)
  | case7 => rename_i ih; exact (ih h).trans (List.suffix_cons _ _)

theorem afterTemplate_suffix (fs : List Frame) (s : List Char) : afterTemplate fs s <:+ s := by
  fun_induction afterTemplate fs s with
  | case1 => exact List.suffix_rfl
  | case2 | case3 | case8 => exact List.nil_suffix
  | _ =>
    rename_i ih
    first
      | exact ih.trans (List.suffix_cons _ _)
      | exact ih.trans ((List.suffix_cons _ _).trans (List.suffix_cons _ _))

end TableRoster.Source
