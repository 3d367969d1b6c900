import TableRoster.Yaml.Lexer
import TableRoster.Yaml.Node

/-! # From tokens to a node

A settings file holds one document or none, and a document one node. -/

namespace TableRoster.Yaml

/-- What an anchor names: a node, or a list or mapping that is not complete yet. -/
inductive Anchored
  | node (n : Node)
  | open (isMap isRoot : Bool)
  deriving Inhabited

structure Parser where
  tokens : List Token
  anchors : List (String × Anchored)
  handles : List (String × String)
  /-- Whether a list or mapping has started. -/
  inCollection : Bool

/-- A step of reading; nothing if the document is malformed. -/
abbrev Parse := StateT Parser Option

namespace Parse

def next? : Parse (Option Token) := do
  pure (← get).tokens.head?

def skip : Parse Unit :=
  modify fun p => { p with tokens := p.tokens.tail }

/-- The next token is a given one, which is then passed over. -/
def accept (t : Token) : Parse Bool := do
  if (← next?) = some t then
    skip
    pure true
  else pure false

def isOneOf (ts : List Token) : Parse Bool := do
  pure (match ← next? with
    | some t => ts.contains t
    | none => false)

def require (t : Token) : Parse Unit := do
  if ← accept t then pure () else failure

/-- Sets what an anchor names. -/
def setAnchor (name : Option String) (a : Anchored) : Parse Unit :=
  match name with
  | none => pure ()
  | some n => modify fun p => { p with anchors := (n, a) :: p.anchors.filter (·.1 ≠ n) }

/-- Starts a list or mapping, which an anchor may name. -/
def start (anchor : Option String) (isMap : Bool) : Parse Unit := do
  setAnchor anchor (.open isMap !(← get).inCollection)
  modify fun p => { p with inCollection := true }

def isTaken (name : Option String) : Parse Bool :=
  match name with
  | none => pure false
  | some n => do pure ((← get).anchors.lookup n).isSome

/-! ## Properties -/

def anchor? : Parse (Option String) := do
  match ← next? with
  | some (.anchor n) =>
    skip
    pure (some n)
  | _ => pure none

def tag? : Parse (Option String) := do
  match ← next? with
  | some (.tag none suffix) =>
    skip
    pure (some suffix)
  | some (.tag (some h) suffix) =>
    skip
    match (← get).handles.lookup h with
    | some front => pure (some (front ++ suffix))
    | none => failure
  | _ => pure none

/-- Anchor and tag, in any order. -/
def properties : Parse (Option String × Option String) := do
  match ← anchor? with
  | some a => pure (some a, ← tag?)
  | none =>
    match ← tag? with
    | some t => pure (← anchor?, some t)
    | none => pure (none, none)

/-- The tag of a node: an exclamation mark alone leaves it to the form of the node. -/
def tagOr (given : Option String) (own : Tag) : Tag :=
  match given with
  | none => own
  | some t => if t = "!" then own else .ofText t

/-- The tag of a scalar. -/
def scalarTag (given : Option String) (text : String) (isPlain : Bool) : Tag :=
  match given with
  | none => if isPlain then .ofPlain text else .text
  | some t => if t = "!" then .ofPlain text else .ofText t

/-! ## Nodes -/

mutual

/-- A node. Within brackets there are no blocks; an item without a block of its own makes a list
where `loose` holds. -/
def node (inBlock loose : Bool) : (fuel : Nat) → Parse Node
  | 0 => failure
  | fuel + 1 => do
    match ← next? with
    | some (.alias n) =>
      skip
      match (← get).anchors.lookup n with
      | some (.node m) => pure m
      | some (.open isMap isRoot) => pure (.again isMap isRoot)
      | none => failure
    | _ =>
      let (anchor, tag) ← properties
      if ← isTaken anchor then failure
      content anchor tag inBlock loose fuel

def content (anchor tag : Option String) (inBlock loose : Bool) : (fuel : Nat) → Parse Node
  | 0 => failure
  | fuel + 1 => do
    let t ← next?
    let listOf (items : Parse (List Node)) : Parse Node := do
      start anchor false
      let n := Node.list (tagOr tag .list) (← items)
      setAnchor anchor (.node n)
      pure n
    let mapOf (entries : Parse (List (Node × Node))) : Parse Node := do
      start anchor true
      let n := Node.map (tagOr tag .map) (← entries)
      setAnchor anchor (.node n)
      pure n
    let scalarOf (n : Node) : Parse Node := do
      setAnchor anchor (.node n)
      pure n
    match t with
    | some (.scalar text isPlain) =>
      skip
      scalarOf (.scalar (scalarTag tag text isPlain) text)
    | some .flowSequence =>
      skip
      listOf (flowItems true fuel)
    | some .flowMapping =>
      skip
      mapOf (flowEntries true fuel)
    | _ =>
      if loose && t == some .item then listOf (looseItems fuel)
      else if inBlock && t == some .blockSequence then
        skip
        listOf (blockItems fuel)
      else if inBlock && t == some .blockMapping then
        skip
        mapOf (blockEntries fuel)
      else if anchor.isSome || tag.isSome then scalarOf (.scalar (tagOr tag .null) "")
      else failure

/-- A node, or nothing where one of some tokens comes next. -/
def nodeUnless (ends : List Token) (inBlock loose : Bool) : (fuel : Nat) → Parse Node
  | 0 => failure
  | fuel + 1 => do
    if ← isOneOf ends then pure .empty else node inBlock loose fuel

def blockItems : (fuel : Nat) → Parse (List Node)
  | 0 => failure
  | fuel + 1 => do
    if ← accept .item then
      let n ← nodeUnless [.item, .blockEnd] true false fuel
      pure (n :: (← blockItems fuel))
    else
      require .blockEnd
      pure []

def looseItems : (fuel : Nat) → Parse (List Node)
  | 0 => failure
  | fuel + 1 => do
    if ← accept .item then
      let n ← nodeUnless [.item, .key, .value, .blockEnd] true false fuel
      pure (n :: (← looseItems fuel))
    else pure []

def blockEntries : (fuel : Nat) → Parse (List (Node × Node))
  | 0 => failure
  | fuel + 1 => do
    if ← accept .key then
      let k ← nodeUnless [.key, .value, .blockEnd] true true fuel
      let v ← if ← accept .value then nodeUnless [.key, .value, .blockEnd] true true fuel
        else pure .empty
      pure ((k, v) :: (← blockEntries fuel))
    else
      require .blockEnd
      pure []

/-- Items between brackets. A key among them makes a mapping of one entry. -/
def flowItems (isFirst : Bool) : (fuel : Nat) → Parse (List Node)
  | 0 => failure
  | fuel + 1 => do
    if ← accept .flowSequenceEnd then pure []
    else
      if !isFirst then require .comma
      if ← accept .flowSequenceEnd then pure []
      else
        let n ←
          if ← accept .key then do
            let k ← nodeUnless [.value, .comma, .flowSequenceEnd] false false fuel
            let v ← if ← accept .value then nodeUnless [.comma, .flowSequenceEnd] false false fuel
              else pure .empty
            pure (Node.map .map [(k, v)])
          else node false false fuel
        pure (n :: (← flowItems false fuel))

def flowEntries (isFirst : Bool) : (fuel : Nat) → Parse (List (Node × Node))
  | 0 => failure
  | fuel + 1 => do
    if ← accept .flowMappingEnd then pure []
    else
      if !isFirst then require .comma
      if ← accept .flowMappingEnd then pure []
      else
        let e ←
          if ← accept .key then do
            let k ← nodeUnless [.value, .comma, .flowMappingEnd] false false fuel
            let v ← if ← accept .value then nodeUnless [.comma, .flowMappingEnd] false false fuel
              else pure .empty
            pure (k, v)
          else do
            let k ← node false false fuel
            pure (k, Node.empty)
        pure (e :: (← flowEntries false fuel))

end

/-! ## Documents -/

/-- The handles that every document has. -/
def ownHandles : List (String × String) :=
  [("!", "!"), ("!!", Tag.front)]

/-- Directives: one version at most, and no handle twice. -/
def directives : (fuel : Nat) → (hasVersion : Bool) → (handles : List (String × String)) →
    Parse (List (String × String))
  | 0, _, _ => failure
  | fuel + 1, hasVersion, handles => do
    match ← next? with
    | some (.version major) =>
      if hasVersion || major != 1 then failure
      skip
      directives fuel true handles
    | some (.handle name front) =>
      if (handles.lookup name).isSome then failure
      skip
      directives fuel hasVersion ((name, front) :: handles)
    | some .otherDirective =>
      skip
      directives fuel hasVersion handles
    | _ => pure handles

/-- A document that has no line of its own to start it. -/
def startsBare (t : Token) : Bool :=
  match t with
  | .version _ | .handle .. | .otherDirective | .documentStart => false
  | _ => true

/-- Passes over ends of documents. -/
def skipEnds : (fuel : Nat) → Parse Unit
  | 0 => pure ()
  | fuel + 1 => do
    if ← accept .documentEnd then skipEnds fuel

/-- The node of the only document. -/
def document (fuel : Nat) : Parse (Option Node) := do
  match ← next? with
  | none => pure none
  | some t =>
    let n ←
      if startsBare t then node true false fuel
      else do
        let handles ← directives fuel false []
        modify fun p => { p with handles := handles ++ ownHandles }
        require .documentStart
        match ← next? with
        | none => pure .empty
        | some t =>
          if startsBare t && t != .documentEnd then node true false fuel else pure .empty
    skipEnds fuel
    if (← next?).isSome then failure
    pure (some n)

end Parse

/-- The node that a text writes, if it writes one. -/
def nodeOf (s : String) : Except Fault (Option Node) := do
  let tokens ← tokensOf s
  let fuel := 4 * tokens.size + 8
  match (Parse.document fuel).run ⟨tokens.toList, [], Parse.ownHandles, false⟩ with
  | some (n, _) => pure n
  | none => .error .malformed

end TableRoster.Yaml
