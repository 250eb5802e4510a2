/-
Events of YAML: what a document says, node by node. Aliases are settled here: an
anchored node has a number, and an alias gives the number of the node that its
name stands for at that point.
-/
import SiteScaffold.Yaml.Token

namespace SiteScaffold.Yaml

/-- An event. The nodes of a collection stand between its start and its
end. -/
inductive Event where
  | alias (number : Nat)
  | scalar (number : Option Nat) (text : Text) (isPlain : Bool)
  | sequence (number : Option Nat)
  | sequenceEnd
  | mapping (number : Option Nat)
  | mappingEnd
  deriving Repr, DecidableEq

namespace Event

/-- What is known while a document is read: the tokens ahead, the handles that
tags may use, and the numbers of the anchors. -/
structure Reading where
  ahead : List Token
  handles : List Text
  anchors : List (Text × Nat)

/-- A part of a document is read, or found malformed. -/
abbrev Reader := StateT Reading Option

namespace Reader

/-- The next token; none at the end. -/
def peek : Reader (Option Token) := do return (← get).ahead.head?

/-- Passes over the next token. -/
def advance : Reader Unit := modify fun r => { r with ahead := r.ahead.tail }

/-- Whether the next token is one of some; at the end there is none. -/
def at? (tokens : List Token) : Reader Bool := do
  return (← peek).any (· ∈ tokens)

/-- Passes over a token if it is next; tells whether it was. -/
def take? (token : Token) : Reader Bool := do
  if ← at? [token] then
    advance
    return true
  else return false

/-- Gives the anchored node that starts here a number. -/
def number (name : Text) : Reader Nat := do
  let r ← get
  let n := r.anchors.length
  set { r with anchors := (name, n) :: r.anchors.filter (·.1 ≠ name) }
  return n

/-- The properties of a node: its anchor, and whether it has a tag. Each may
stand once, in either order. -/
def properties (fuel : Nat) (anchor : Option Text) (tagged : Bool) :
    Reader (Option Text × Bool) := do
  match fuel with
  | 0 => return (anchor, tagged)
  | fuel + 1 =>
    match ← peek, anchor, tagged with
    | some (.anchor name), none, _ =>
      advance
      properties fuel (some name) tagged
    | some (.tag handle), _, false =>
      advance
      if handle ∉ (← get).handles then failure
      properties fuel anchor true
    | _, _, _ => return (anchor, tagged)

end Reader

open Reader

/-- A node that is not written. -/
def absent : List Event := [scalar none [] true]

mutual

/-- A node, which may be a block collection if `inBlock` says so, or a sequence
as deep as the mapping around it if `indentless` says so. -/
def node (fuel : Nat) (inBlock indentless : Bool) : Reader (List Event) := do
  match fuel with
  | 0 => failure
  | fuel + 1 =>
    if let some (.alias name) ← peek then
      advance
      match (← get).anchors.lookup name with
      | some n => return [.alias n]
      | none => failure
    let (anchor, tagged) ← properties 2 none false
    let start ← peek
    let numbered : Reader (Option Nat) := anchor.mapM number
    match start with
    | some (.scalar text isPlain) =>
      advance
      return [scalar (← numbered) text isPlain]
    | some .entry =>
      if indentless then
        let n ← numbered
        return sequence n :: (← indentlessEntries fuel) ++ [sequenceEnd]
      else bare anchor tagged
    | some .flowSequence =>
      advance
      let n ← numbered
      return sequence n :: (← flowEntries fuel true) ++ [sequenceEnd]
    | some .flowMapping =>
      advance
      let n ← numbered
      return mapping n :: (← flowPairs fuel true) ++ [mappingEnd]
    | some .blockSequence =>
      if inBlock then
        advance
        let n ← numbered
        return sequence n :: (← blockEntries fuel) ++ [sequenceEnd]
      else bare anchor tagged
    | some .blockMapping =>
      if inBlock then
        advance
        let n ← numbered
        return mapping n :: (← blockPairs fuel) ++ [mappingEnd]
      else bare anchor tagged
    | _ => bare anchor tagged

/-- A node of which only the properties are written. -/
def bare (anchor : Option Text) (tagged : Bool) : Reader (List Event) := do
  if anchor.isNone && !tagged then failure
  return [scalar (← anchor.mapM number) [] true]

/-- A node, unless one of some tokens comes instead. -/
def nodeUnless (fuel : Nat) (stops : List Token) (inBlock indentless : Bool) :
    Reader (List Event) := do
  match fuel with
  | 0 => failure
  | fuel + 1 => if ← at? stops then return absent else node fuel inBlock indentless

/-- The entries of a block sequence. -/
def blockEntries (fuel : Nat) : Reader (List Event) := do
  match fuel with
  | 0 => failure
  | fuel + 1 =>
    if ← take? .entry then
      let item ← nodeUnless fuel [.entry, .blockEnd] true false
      return item ++ (← blockEntries fuel)
    else if ← take? .blockEnd then return []
    else failure

/-- The entries of a sequence as deep as the mapping around it. -/
def indentlessEntries (fuel : Nat) : Reader (List Event) := do
  match fuel with
  | 0 => failure
  | fuel + 1 =>
    if ← take? .entry then
      let item ← nodeUnless fuel [.entry, .key, .value, .blockEnd] true false
      return item ++ (← indentlessEntries fuel)
    else return []

/-- The keys and values of a block mapping. -/
def blockPairs (fuel : Nat) : Reader (List Event) := do
  match fuel with
  | 0 => failure
  | fuel + 1 =>
    if ← take? .key then
      let stops : List Token := [.key, .value, .blockEnd]
      let name ← nodeUnless fuel stops true true
      let item ← if ← take? .value then nodeUnless fuel stops true true else pure absent
      return name ++ item ++ (← blockPairs fuel)
    else if ← take? .blockEnd then return []
    else failure

/-- The entries of a flow sequence; a key in it stands for a mapping of one
pair. -/
def flowEntries (fuel : Nat) (first : Bool) : Reader (List Event) := do
  match fuel with
  | 0 => failure
  | fuel + 1 =>
    if ← take? .flowSequenceEnd then return []
    if !first then
      if !(← take? .flowEntry) then failure
    if ← take? .flowSequenceEnd then return []
    let item ← if ← take? .key then flowPair fuel else node fuel false false
    return item ++ (← flowEntries fuel false)

/-- The pair after a key mark in a flow sequence. A key that is not written
takes the mark after it along. -/
def flowPair (fuel : Nat) : Reader (List Event) := do
  match fuel with
  | 0 => failure
  | fuel + 1 =>
    let name ←
      if ← at? [.value, .flowEntry, .flowSequenceEnd] then
        advance
        pure absent
      else node fuel false false
    let item ←
      if ← take? .value then nodeUnless fuel [.flowEntry, .flowSequenceEnd] false false
      else pure absent
    return mapping none :: name ++ item ++ [mappingEnd]

/-- The keys and values of a flow mapping; a node without a key mark is a key
without a value. -/
def flowPairs (fuel : Nat) (first : Bool) : Reader (List Event) := do
  match fuel with
  | 0 => failure
  | fuel + 1 =>
    if ← take? .flowMappingEnd then return []
    if !first then
      if !(← take? .flowEntry) then failure
    if ← take? .flowMappingEnd then return []
    if ← take? .key then
      let name ← nodeUnless fuel [.value, .flowEntry, .flowMappingEnd] false false
      let item ←
        if ← take? .value then nodeUnless fuel [.flowEntry, .flowMappingEnd] false false
        else pure absent
      return name ++ item ++ (← flowPairs fuel false)
    else
      let name ← node fuel false false
      return name ++ absent ++ (← flowPairs fuel false)

end

/-- The directives before a document. -/
def directives (fuel : Nat) (versioned : Bool) : Reader Bool := do
  match fuel with
  | 0 => failure
  | fuel + 1 =>
    match ← peek with
    | some (.version major minor) =>
      advance
      if versioned || major ≠ 1 || (minor ≠ 1 && minor ≠ 2) then failure
      let _ ← directives fuel true
      return true
    | some (.tagHandle handle) =>
      advance
      let r ← get
      if handle ∈ r.handles then failure
      set { r with handles := handle :: r.handles }
      let _ ← directives fuel versioned
      return true
    | _ => return false

/-- The only document of a stream; a stream without one has no events. -/
def document (fuel : Nat) : Reader (List Event) := do
  if (← peek).isNone then return []
  let r ← get
  set { r with handles := [] }
  let directed ← directives fuel false
  let defaults : List Text := ["!", "!!", []]
  modify fun r => { r with handles := r.handles ++ defaults }
  let events ←
    if ← take? .documentStart then
      let next ← peek
      if next.isNone || next = some .documentStart || next = some .documentEnd then pure absent
      else
        match next with
        | some (.version _ _) | some (.tagHandle _) => pure absent
        | _ => node fuel true false
    else if directed then failure
    else node fuel true false
  let rest := (← get).ahead.dropWhile (· = .documentEnd)
  if rest ≠ [] then failure
  return events

/-- The events of the only document of a text; none for an empty text. There is
no answer if the text is malformed or holds more documents. -/
def ofText? (t : Text) : Option (List Event) := do
  let tokens ← Token.scan? t
  let (events, _) ← (document (4 * tokens.length + 8)).run ⟨tokens, [], []⟩
  return events

end Event

end SiteScaffold.Yaml
