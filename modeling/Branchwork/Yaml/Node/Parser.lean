import Branchwork.Yaml.Node
import Branchwork.Yaml.Problem
import Branchwork.Yaml.Token

/-!
# From tokens to nodes

The parser reads the one document of a text. An anchor names a node for the rest of the document
and may not be used twice; an alias stands for the node with that anchor. Inside of that node the
alias stands for the node without its members, since a node cannot contain itself.

The readers spend one unit of `fuel` on each call. Between two tokens at most three calls nest, so
four units for each token are enough.
-/

namespace Branchwork.Yaml

/-- The state of the parser: the tokens that are left, the nodes with anchors, and the handles of
tags. -/
structure Parser where
  tokens : List Token
  anchors : List (String × Node)
  handles : List (String × String)

/-- A step of the parser. -/
abbrev Parse := StateT Parser (Except Problem)

namespace Parse

/-- Refuses the text. -/
def fail {α : Type} (part : Part) : Parse α := throw (.malformed part)

/-- The next token. -/
def peek : Parse (Option Token) := do
  match (← get).tokens.head? with
  | some (.unreadable problem) => throw problem
  | found => return found

/-- Whether the next token is one of the given tokens. -/
def atAny (tokens : List Token) : Parse Bool := return (← peek).any tokens.contains

/-- Moves behind the next token. -/
def advance : Parse Unit := modify fun s => { s with tokens := s.tokens.drop 1 }

/-- Takes a token, if it comes next. -/
def accept (t : Token) : Parse Bool := do
  let found ← atAny [t]
  if found then advance
  return found

/-- Takes a token that has to come next. -/
def expect (t : Token) : Parse Unit := do
  unless ← accept t do fail .layout

/-- The full name of a tag. -/
def fullName (handle : Option String) (suffix : String) : Parse String := do
  match handle with
  | none => return suffix
  | some handle =>
    match (← get).handles.lookup handle with
    | some start => return start ++ suffix
    | none => fail .tag

/-- Takes an anchor. -/
def anchor? : Parse (Option String) := do
  match ← peek with
  | some (.anchor name) =>
    advance
    return some name
  | _ => return none

/-- Takes a tag: its handle, if it has one, and what stands behind it. -/
def tag? : Parse (Option (Option String × String)) := do
  match ← peek with
  | some (.tag handle suffix) =>
    advance
    return some (handle, suffix)
  | _ => return none

/-- Takes an anchor and a tag, in either order. -/
def properties : Parse (Option String × Option String) := do
  match ← anchor?, ← tag? with
  | some name, none => return (some name, none)
  | some name, some (handle, suffix) => return (some name, some (← fullName handle suffix))
  | none, none => return (none, none)
  | none, some (handle, suffix) =>
    -- what is behind the tag is looked at before its handle
    let name ← anchor?
    return (name, some (← fullName handle suffix))

/-- The node with an anchor. -/
def anchored (name : String) : Parse Node := do
  match (← get).anchors.lookup name with
  | some node => return node
  | none => fail .anchor

/-- Notes the node with an anchor. -/
def putAnchor (name : Option String) (node : Node) : Parse Unit :=
  match name with
  | none => return
  | some name => modify fun s => { s with anchors := (name, node) :: s.anchors }

/-- Notes that a node with an anchor begins; what is known of it are no members yet. -/
def openAnchor (name : Option String) (begun : Node) : Parse Unit := do
  let anchors := (← get).anchors
  if name.any fun name => (anchors.lookup name).isSome then fail .anchor
  putAnchor name begun

/-- Whether a tag leaves the kind of a node open. -/
def isOpen (tag : Option String) : Bool := tag.isNone || tag = some "!"

/-- The tag of a collection. -/
def collectionTag (default : Tag) (tag : Option String) : Tag :=
  if isOpen tag then default else (tag.map Tag.ofName).getD default

/-- The node of a scalar with the tag that is written in front of it. -/
def scalarNode (tag : Option String) (text : String) (isPlain : Bool) : Node :=
  match tag with
  | none => .scalar (if isPlain then .ofPlain text else .text) text
  | some name => .scalar (if name = "!" then .ofPlain text else .ofName name) text

/-- The node that begins with a token, without its members. -/
def begunNode (tag : Option String) : Option Token → Node
  | some .flowSequenceStart | some .blockSequenceStart | some .blockEntry =>
    .sequence (collectionTag .sequence tag) []
  | some .flowMappingStart | some .blockMappingStart => .mapping (collectionTag .mapping tag) []
  | _ => .empty

mutual

/-- Reads a node. Block collections are read only where they may stand, and a sequence may be as
little indented as the mapping around it only as a member of that mapping. -/
def node (inBlock inMapping : Bool) : Nat → Parse Node
  | 0 => fail .layout
  | fuel + 1 => do
    match ← peek with
    | some (.alias name) =>
      advance
      anchored name
    | _ =>
      let (name, tag) ← properties
      -- an alias inside of the node finds the node without its members
      openAnchor name (begunNode tag (← peek))
      let read ← content inBlock inMapping name tag fuel
      putAnchor name read
      return read

/-- Reads the content of a node behind its anchor and its tag. -/
def content (inBlock inMapping : Bool) (name tag : Option String) : Nat → Parse Node
  | 0 => fail .layout
  | fuel + 1 => do
    match ← peek with
    | some (.scalar text isPlain) =>
      advance
      return scalarNode tag text isPlain
    | some .flowSequenceStart =>
      advance
      return .sequence (collectionTag .sequence tag) (← flowItems true fuel)
    | some .flowMappingStart =>
      advance
      return .mapping (collectionTag .mapping tag) (← flowEntries true fuel)
    | token =>
      if inMapping && token = some .blockEntry then
        return .sequence (collectionTag .sequence tag) (← indentlessItems fuel)
      else if inBlock && token = some .blockSequenceStart then
        advance
        return .sequence (collectionTag .sequence tag) (← blockItems fuel)
      else if inBlock && token = some .blockMappingStart then
        advance
        return .mapping (collectionTag .mapping tag) (← blockEntries fuel)
      -- an anchor or a tag with nothing behind it stands for an empty scalar
      else if name.isSome || tag.isSome then return scalarNode tag "" true
      else fail .layout

/-- Reads a node, or the empty one in front of one of the given tokens. -/
def nodeBefore (ends : List Token) (inBlock inMapping : Bool) : Nat → Parse Node
  | 0 => fail .layout
  | fuel + 1 => do
    if ← atAny ends then return .empty else node inBlock inMapping fuel

/-- Reads the members of a block sequence. -/
def blockItems : Nat → Parse (List Node)
  | 0 => fail .layout
  | fuel + 1 => do
    if ← accept .blockEntry then
      let item ← nodeBefore [.blockEntry, .blockEnd] true false fuel
      return item :: (← blockItems fuel)
    else
      expect .blockEnd
      return []

/-- Reads the members of a sequence that is as little indented as the mapping around it. -/
def indentlessItems : Nat → Parse (List Node)
  | 0 => fail .layout
  | fuel + 1 => do
    if ← accept .blockEntry then
      let item ← nodeBefore [.blockEntry, .key, .value, .blockEnd] true false fuel
      return item :: (← indentlessItems fuel)
    else return []

/-- Reads the value behind a colon, or the empty node if there is no colon. -/
def valueBefore (ends : List Token) (inBlock : Bool) : Nat → Parse Node
  | 0 => fail .layout
  | fuel + 1 => do
    if ← accept .value then nodeBefore ends inBlock inBlock fuel else return .empty

/-- Reads the entries of a block mapping. -/
def blockEntries : Nat → Parse (List (Node × Node))
  | 0 => fail .layout
  | fuel + 1 => do
    if ← accept .key then
      let key ← nodeBefore [.key, .value, .blockEnd] true true fuel
      let value ← valueBefore [.key, .value, .blockEnd] true fuel
      return (key, value) :: (← blockEntries fuel)
    else
      expect .blockEnd
      return []

/-- Reads the members of a flow sequence; a key makes a mapping of one entry. -/
def flowItems (isFirst : Bool) : Nat → Parse (List Node)
  | 0 => fail .layout
  | fuel + 1 => do
    if ← accept .flowSequenceEnd then return []
    unless isFirst do expect .flowEntry
    if ← accept .key then
      let key ← nodeBefore [.value, .flowEntry, .flowSequenceEnd] false false fuel
      let value ← valueBefore [.flowEntry, .flowSequenceEnd] false fuel
      return .mapping .mapping [(key, value)] :: (← flowItems false fuel)
    else if ← accept .flowSequenceEnd then return []
    else
      let item ← node false false fuel
      return item :: (← flowItems false fuel)

/-- Reads the entries of a flow mapping; a node without a colon is a key with an empty value. -/
def flowEntries (isFirst : Bool) : Nat → Parse (List (Node × Node))
  | 0 => fail .layout
  | fuel + 1 => do
    if ← accept .flowMappingEnd then return []
    unless isFirst do expect .flowEntry
    if ← accept .key then
      let key ← nodeBefore [.value, .flowEntry, .flowMappingEnd] false false fuel
      let value ← valueBefore [.flowEntry, .flowMappingEnd] false fuel
      return (key, value) :: (← flowEntries false fuel)
    else if ← accept .flowMappingEnd then return []
    else
      let key ← node false false fuel
      return (key, .empty) :: (← flowEntries false fuel)

end

/-! ## Documents -/

/-- The handles that every document has. -/
def defaultHandles : List (String × String) := [("!", "!"), ("!!", Tag.nameStart)]

/-- Reads the directives of a document; `versioned` tells whether a version was given before. -/
def directives : Nat → Bool → Parse Unit
  | 0, _ => return
  | fuel + 1, versioned => do
    match ← peek with
    | some (.directive d) =>
      advance
      match d with
      | .version major _ =>
        if versioned || major ≠ 1 then fail .document
        directives fuel true
      | .handle handle start =>
        if ((← get).handles.lookup handle).isSome then fail .document
        modify fun s => { s with handles := (handle, start) :: s.handles }
        directives fuel versioned
      | .other => directives fuel versioned
    | _ => return

/-- Moves behind the ends of documents. -/
def skipEnds : Nat → Parse Unit
  | 0 => return
  | fuel + 1 => do
    if ← accept .documentEnd then skipEnds fuel

/-- Whether the next token belongs to the frame of a document, or there is none. -/
def atFrame : Parse Bool := do
  match ← peek with
  | none | some (.directive _) | some .documentStart | some .documentEnd => return true
  | _ => return false

/-- Reads a text with at most one document. -/
def document : Parse (Option Node) := do
  let count := (← get).tokens.length
  let fuel := 4 * count + 4
  let found ← match ← peek with
    | none => return none
    | some (.directive _) | some .documentStart =>
      directives count false
      modify fun s => { s with handles := s.handles ++ defaultHandles }
      expect .documentStart
      if ← atFrame then pure Node.empty else node true false fuel
    | _ =>
      modify fun s => { s with handles := defaultHandles }
      node true false fuel
  skipEnds count
  if (← peek).isSome then fail .document
  return some found

end Parse

/-- The node of the document in a list of tokens, if there is a document. -/
def Node.ofTokens? (tokens : List Token) : Except Problem (Option Node) := do
  let (found, _) ← Parse.document.run ⟨tokens, [], []⟩
  return found

end Branchwork.Yaml
