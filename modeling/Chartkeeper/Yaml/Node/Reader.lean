import Chartkeeper.Yaml.Node.Basic
import Chartkeeper.Yaml.Token.Lexer
/-!
# Reading documents from tokens

Builds the documents of a stream from its tokens, by recursive descent. A document may follow
its directives and a mark; only the first may do without. Of an anchor that is given again the
later node counts, also for aliases before it.
-/

namespace Chartkeeper.Yaml

/-- What is left to read, and what the document has given so far. -/
structure Stream where
  tokens : List Token
  /-- What the tag handles of this document stand for. -/
  handles : List (Tag × Tag)
  /-- The number of each anchor name. -/
  names : List (String × Nat)
  /-- The node that an anchor number marks, by the order in which marked nodes start. -/
  marks : List (Nat × Nat)
  started : Nat
  /-- The marked nodes, by the order in which they start. -/
  nodes : List (Nat × Node)
  steps : Nat

/-- A step of reading; `none` when the tokens are no document. -/
abbrev Parse := StateT Stream Option

namespace Parse

def peek : Parse Token := do
  match (← get).tokens with
  | t :: _ => return t
  | [] => failure

def advance : Parse Unit :=
  modify fun s => { s with tokens := s.tokens.drop 1 }

/-- Counts steps of walking through the document. -/
def count (n : Nat) : Parse Unit :=
  modify fun s => { s with steps := s.steps + n }

/-- The node of a place where something is missing. -/
def missing : Parse Node := do
  count 1
  return .missing

/-- Notes that a node with an anchor starts. An anchor given again gets the number of the next
new name. -/
def noteAnchor (name : String) : Parse Nat := do
  let s ← get
  let id := s.names.length
  let names := (name, id) :: s.names.filter fun p => p.1 ≠ name
  set { s with names, marks := (id, s.started) :: s.marks, started := s.started + 1 }
  return s.started

/-- Keeps the node whose anchor was noted. -/
def keepAnchored (start : Nat) (n : Node) : Parse Unit :=
  modify fun s => { s with nodes := (start, n) :: s.nodes }

/-- The tag that a written tag stands for. -/
def resolveTag (t : TagToken) : Parse Tag := do
  if t.handle.isEmpty then return t.suffix
  match (← get).handles.lookup t.handle with
  | some shorthand => return shorthand ++ t.suffix
  | none => failure

/-- Reads the anchor and the tag before a node, in either order. -/
def properties : Parse (Option String × Option Tag) := do
  match ← peek with
  | .anchor name =>
    advance
    match ← peek with
    | .tag t =>
      advance
      return (some name, some (← resolveTag t))
    | _ => return (some name, none)
  | .tag t =>
    advance
    match ← peek with
    | .anchor name =>
      advance
      return (some name, some (← resolveTag t))
    | _ => return (none, some (← resolveTag t))
  | _ => return (none, none)

/-- A tag that says nothing is dropped from a scalar. -/
def scalarTag (tag : Option Tag) : Option Tag :=
  if tag = some (Tag.ofText "!") then none else tag

mutual

/-- Reads a node. Block collections are only read where `block` allows them; where `dashes`
does, entries may stand without an indentation of their own. -/
def node : (fuel : Nat) → (block dashes : Bool) → Parse Node
  | 0, _, _ => failure
  | fuel + 1, block, dashes => do
    match ← peek with
    | .alias name =>
      advance
      count 1
      match (← get).names.lookup name with
      | some id => return .alias id
      | none => failure
    | _ =>
      let (anchor, tag) ← properties
      let start ← anchor.mapM noteAnchor
      let n ← content fuel block dashes tag anchor.isSome
      if let some start := start then keepAnchored start n
      return n

/-- Reads what follows the anchor and the tag of a node. -/
def content : (fuel : Nat) → (block dashes : Bool) → Option Tag → (anchored : Bool) → Parse Node
  | 0, _, _, _, _ => failure
  | fuel + 1, block, dashes, tag, anchored => do
    match ← peek with
    | .scalar text style =>
      advance
      count 1
      return .scalar (scalarTag tag) style text
    | .flowSequenceStart =>
      advance
      count 2
      return .seq tag (← flowItems fuel true)
    | .flowMappingStart =>
      advance
      count 2
      return .map tag (← flowEntries fuel true)
    | .blockEntry =>
      if dashes then
        count 2
        return .seq tag (← dashItems fuel)
      else empty tag anchored
    | .blockSequenceStart =>
      if block then
        advance
        count 2
        return .seq tag (← blockItems fuel)
      else empty tag anchored
    | .blockMappingStart =>
      if block then
        advance
        count 2
        return .map tag (← blockEntries fuel)
      else empty tag anchored
    | _ => empty tag anchored

/-- The node of an anchor or a tag that nothing follows. -/
def empty (tag : Option Tag) (anchored : Bool) : Parse Node := do
  if anchored || tag.isSome then
    count 1
    return .scalar tag .plain ""
  else failure

/-- Reads the entries of a block sequence. -/
def blockItems : (fuel : Nat) → Parse (List Node)
  | 0 => failure
  | fuel + 1 => do
    match ← peek with
    | .blockEntry =>
      advance
      let item ← match ← peek with
        | .blockEntry | .blockEnd => missing
        | _ => node fuel true false
      return item :: (← blockItems fuel)
    | .blockEnd =>
      advance
      return []
    | _ => failure

/-- Reads the entries of a sequence without an indentation of its own. -/
def dashItems : (fuel : Nat) → Parse (List Node)
  | 0 => failure
  | fuel + 1 => do
    match ← peek with
    | .blockEntry =>
      advance
      let item ← match ← peek with
        | .blockEntry | .key | .value | .blockEnd => missing
        | _ => node fuel true false
      return item :: (← dashItems fuel)
    | _ => return []

/-- Reads a key or a value of a block mapping, which may be missing. -/
def blockPart : (fuel : Nat) → Parse Node
  | 0 => failure
  | fuel + 1 => do
    match ← peek with
    | .key | .value | .blockEnd => missing
    | _ => node fuel true true

/-- Reads the entries of a block mapping. -/
def blockEntries : (fuel : Nat) → Parse (List (Node × Node))
  | 0 => failure
  | fuel + 1 => do
    match ← peek with
    | .key =>
      advance
      let key ← blockPart fuel
      let value ← match ← peek with
        | .value =>
          advance
          blockPart fuel
        | _ => missing
      return (key, value) :: (← blockEntries fuel)
    | .blockEnd =>
      advance
      return []
    | _ => failure

/-- Reads the items of a sequence in brackets, the first one or a later one. -/
def flowItems : (fuel : Nat) → (first : Bool) → Parse (List Node)
  | 0, _ => failure
  | fuel + 1, first => do
    match ← peek with
    | .flowSequenceEnd =>
      advance
      return []
    | t =>
      if !first then
        match t with
        | .flowEntry => advance
        | _ => failure
      match ← peek with
      | .flowSequenceEnd =>
        advance
        return []
      | .key =>
        advance
        count 2
        let item ← flowPair fuel
        return item :: (← flowItems fuel false)
      | _ =>
        let item ← node fuel false false
        return item :: (← flowItems fuel false)

/-- Reads the one entry of a mapping that is written without braces inside brackets. The token
after a missing key is passed. -/
def flowPair : (fuel : Nat) → Parse Node
  | 0 => failure
  | fuel + 1 => do
    let key ← match ← peek with
      | .value | .flowEntry | .flowSequenceEnd =>
        advance
        missing
      | _ => node fuel false false
    let value ← match ← peek with
      | .value =>
        advance
        match ← peek with
        | .flowEntry | .flowSequenceEnd => missing
        | _ => node fuel false false
      | _ => missing
    return .map none [(key, value)]

/-- Reads the entries of a mapping in braces, the first one or a later one. -/
def flowEntries : (fuel : Nat) → (first : Bool) → Parse (List (Node × Node))
  | 0, _ => failure
  | fuel + 1, first => do
    match ← peek with
    | .flowMappingEnd =>
      advance
      return []
    | t =>
      if !first then
        match t with
        | .flowEntry => advance
        | _ => failure
      match ← peek with
      | .flowMappingEnd =>
        advance
        return []
      | .key =>
        advance
        let key ← match ← peek with
          | .value | .flowEntry | .flowMappingEnd => missing
          | _ => node fuel false false
        let value ← match ← peek with
          | .value =>
            advance
            match ← peek with
            | .flowEntry | .flowMappingEnd => missing
            | _ => node fuel false false
          | _ => missing
        return (key, value) :: (← flowEntries fuel false)
      | _ =>
        let key ← node fuel false false
        let value ← missing
        return (key, value) :: (← flowEntries fuel false)

end

/-- The handles that every document has. -/
def standardHandles : List (Tag × Tag) :=
  [(Tag.ofText "!", Tag.ofText "!"), (Tag.ofText "!!", Tag.ofText "tag:yaml.org,2002:")]

/-- Reads the directives before a document: at most one version, which is 1.1 or 1.2, and a
handle at most once. -/
def directives : (fuel : Nat) → (versioned : Bool) → List (Tag × Tag) → Parse (List (Tag × Tag))
  | 0, _, _ => failure
  | fuel + 1, versioned, handles => do
    match ← peek with
    | .directive (.version major minor) =>
      if versioned || major ≠ 1 || !(minor = 1 || minor = 2) then failure
      advance
      directives fuel true handles
    | .directive (.tag handle shorthand) =>
      if (handles.lookup handle).isSome then failure
      advance
      directives fuel versioned (handles ++ [(handle, shorthand)])
    | _ => return handles ++ standardHandles

/-- Starts a document with some handles. -/
def startDocument (handles : List (Tag × Tag)) : Parse Unit :=
  modify fun s =>
    { s with handles, names := [], marks := [], started := 0, nodes := [], steps := 0 }

/-- The document around a root. -/
def finishDocument (root : Node) : Parse Document := do
  if let .documentEnd ← peek then advance
  let s ← get
  -- the node that started last under a number is the one it marks
  let marks := s.marks.filterMap fun (id, start) => (s.nodes.lookup start).map fun n => (id, n)
  return ⟨some root, marks, s.steps⟩

/-- Passes the marks that end a document. -/
def skipEnds : (fuel : Nat) → Parse Unit
  | 0 => return
  | fuel + 1 => do
    if let .documentEnd ← peek then
      advance
      skipEnds fuel

/-- Reads the documents of a stream from the first one or a later one. -/
def documents : (fuel : Nat) → (first : Bool) → Parse (List Document)
  | 0, _ => failure
  | fuel + 1, first => do
    if !first then skipEnds fuel
    match ← peek with
    | .streamEnd => return []
    | t =>
      let marked := match t with
        | .directive _ | .documentStart => true
        | _ => !first
      if marked then
        startDocument (← directives fuel false [])
        match ← peek with
        | .documentStart => advance
        | _ => failure
      else startDocument standardHandles
      let root ← match ← peek with
        | .directive _ | .documentStart | .streamEnd => missing
        | .documentEnd => if marked then missing else failure
        | _ => node fuel true false
      let document ← finishDocument root
      return document :: (← documents fuel false)

end Parse

/-- The documents of a text; `none` when it is not YAML. A stream without a document is one
document without a root. -/
def Document.ofText? (text : String) : Option (List Document) := do
  let tokens ← Token.ofText? text.toList
  let fuel := 4 * tokens.length + 4
  let (documents, _) ← (Parse.documents fuel true).run ⟨tokens, [], [], [], 0, [], 0⟩
  return if documents.isEmpty then [⟨none, [], 0⟩] else documents

end Chartkeeper.Yaml
