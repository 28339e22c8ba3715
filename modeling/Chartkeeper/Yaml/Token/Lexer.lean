import Chartkeeper.Yaml.Token.Mark
import Chartkeeper.Yaml.Token.Scalar
/-!
# The tokens of a YAML text

Turns a text into tokens. Indentation opens and closes block collections; a token that turns
out to be a key, because a colon follows it on its line, gets its key token put in front of
it. The lexer refuses a text that cannot be cut into tokens.
-/

namespace Chartkeeper.Yaml

inductive Token where
  | directive (d : Directive)
  | documentStart
  | documentEnd
  | streamEnd
  | blockSequenceStart
  | blockMappingStart
  | blockEnd
  | flowSequenceStart
  | flowSequenceEnd
  | flowMappingStart
  | flowMappingEnd
  | blockEntry
  | flowEntry
  | key
  | value
  | alias (name : String)
  | anchor (name : String)
  | tag (t : TagToken)
  | scalar (text : String) (style : Style)

/-- A token that may turn out to start a key: how many tokens stand before it, and its place.
One that is required has to. -/
structure KeySlot where
  required : Bool
  before : Nat
  index : Nat
  line : Nat
  column : Nat

/-- The state of the lexer. -/
structure Lexer where
  cursor : Cursor
  /-- The tokens so far, the last one first. -/
  tokens : List Token
  count : Nat
  /-- The column of the innermost block collection, `-1` outside any. -/
  indent : Int
  /-- The columns of the collections around it. -/
  outer : List Int
  /-- The slot of the present flow level. -/
  slot : Option KeySlot
  /-- The slots of the flow levels around it; there are as many as levels. -/
  outerSlots : List (Option KeySlot)
  /-- Whether a key may start here. -/
  keyAllowed : Bool

namespace Lexer

def start (text : List Char) : Lexer :=
  ⟨Cursor.start text, [], 0, -1, [], none, [], true⟩

/-- Whether the place is inside brackets. -/
def inFlow (l : Lexer) : Bool :=
  !l.outerSlots.isEmpty

def emit (l : Lexer) (t : Token) : Lexer :=
  { l with tokens := t :: l.tokens, count := l.count + 1 }

/-- Adds a token in front of those after the first `before`. -/
def emitAt (l : Lexer) (before : Nat) (t : Token) : Lexer :=
  let later := l.count - before
  { l with tokens := l.tokens.take later ++ t :: l.tokens.drop later, count := l.count + 1 }

def moveTo (l : Lexer) (c : Cursor) : Lexer :=
  { l with cursor := c }

/-! ## Indentation -/

/-- Opens a block collection at a column, unless one is open there. -/
def openBlock (l : Lexer) (column : Nat) (before : Nat) (t : Token) : Lexer :=
  if !l.inFlow && l.indent < column then
    { l.emitAt before t with indent := column, outer := l.indent :: l.outer }
  else l

/-- The block ends that close the collections right of a column. -/
def closing (column : Int) : (indent : Int) → (outer : List Int) → Nat × Int × List Int
  | indent, [] => (0, indent, [])
  | indent, next :: outer =>
    if column < indent then
      let (n, indent, outer) := closing column next outer
      (n + 1, indent, outer)
    else (0, indent, next :: outer)

/-- Closes the block collections right of a column. -/
def closeBlocks (l : Lexer) (column : Int) : Lexer :=
  if l.inFlow then l
  else
    let (n, indent, outer) := closing column l.indent l.outer
    { l with
      tokens := List.replicate n Token.blockEnd ++ l.tokens, count := l.count + n, indent, outer }

/-! ## Keys -/

/-- Whether a slot can no longer become a key: keys stay on one line and within 1024
characters. -/
def isStale (l : Lexer) (s : KeySlot) : Bool :=
  s.line < l.cursor.line || s.index + 1024 < l.cursor.index

/-- Drops a slot that is stale, unless it was required. -/
def refreshSlot (l : Lexer) : Option KeySlot → Option (Option KeySlot)
  | some s => if l.isStale s then (if s.required then none else some none) else some (some s)
  | none => some none

/-- Drops the slots that are stale. -/
def refresh (l : Lexer) : Option Lexer := do
  let slot ← l.refreshSlot l.slot
  let outerSlots ← l.outerSlots.mapM l.refreshSlot
  return { l with slot, outerSlots }

/-- Gives up the present slot, unless it was required. -/
def dropSlot (l : Lexer) : Option Lexer :=
  match l.slot with
  | some s => if s.required then none else some { l with slot := none }
  | none => some l

/-- Notes that the next token may start a key. -/
def offerSlot (l : Lexer) : Option Lexer :=
  if l.keyAllowed then do
    let c := l.cursor
    -- at the column of the open collection, what is no dash has to be a key
    let required := !l.inFlow && l.indent == (c.column : Int)
    let l ← l.dropSlot
    return { l with slot := some ⟨required, l.count, c.index, c.line, c.column⟩ }
  else some l

/-! ## Tokens -/

/-- Adds a token of some characters that cannot start a key. -/
def mark (l : Lexer) (width : Nat) (keyAllowed : Bool) (t : Token) : Option Lexer := do
  let l ← l.dropSlot
  return { (l.moveTo (l.cursor.skipN width)).emit t with keyAllowed }

/-- Opens brackets. -/
def openFlow (l : Lexer) (t : Token) : Option Lexer := do
  let l ← l.offerSlot
  let l := { l with slot := none, outerSlots := l.slot :: l.outerSlots, keyAllowed := true }
  return (l.moveTo l.cursor.skip).emit t

/-- Closes brackets. -/
def closeFlow (l : Lexer) (t : Token) : Option Lexer := do
  let l ← l.dropSlot
  let l := match l.outerSlots with
    | slot :: outerSlots => { l with slot, outerSlots }
    | [] => l
  return { (l.moveTo l.cursor.skip).emit t with keyAllowed := false }

/-- A dash in front of an entry. -/
def blockEntry (l : Lexer) : Option Lexer :=
  if l.inFlow then l.mark 1 true .blockEntry
  else if !l.keyAllowed then none
  else (l.openBlock l.cursor.column l.count .blockSequenceStart).mark 1 true .blockEntry

/-- A question mark in front of a key. -/
def keyMark (l : Lexer) : Option Lexer :=
  if l.inFlow then l.mark 1 false .key
  else if !l.keyAllowed then none
  else (l.openBlock l.cursor.column l.count .blockMappingStart).mark 1 true .key

/-- A colon in front of a value. If the slot is open, what it notes is a key. -/
def valueMark (l : Lexer) : Option Lexer :=
  match l.slot with
  | some s =>
    -- the key mark and the start of its mapping go in front of what was read since
    let l := (l.emitAt s.before .key).openBlock s.column s.before .blockMappingStart
    let l := { l with slot := none, keyAllowed := false }
    some ((l.moveTo l.cursor.skip).emit .value)
  | none =>
    if l.inFlow then some { (l.moveTo l.cursor.skip).emit .value with keyAllowed := false }
    else if !l.keyAllowed then none
    else
      let l := l.openBlock l.cursor.column l.count .blockMappingStart
      some { (l.moveTo l.cursor.skip).emit .value with keyAllowed := true }

/-- A token that may start a key, read at the cursor. -/
def keyable (l : Lexer) (read : Cursor → Option (Token × Cursor)) : Option Lexer := do
  let l ← l.offerSlot
  let (t, c) ← read l.cursor
  return { (l.moveTo c).emit t with keyAllowed := false }

def quoted (l : Lexer) (single : Bool) : Option Lexer :=
  l.keyable fun c => (readQuoted single c).map fun p =>
    (.scalar (String.ofList p.1) (if single then .singleQuoted else .doubleQuoted), p.2)

def block (l : Lexer) (folded : Bool) : Option Lexer := do
  let l ← l.dropSlot
  let (text, c) ← readBlock folded l.indent l.cursor
  let t := Token.scalar (String.ofList text) (if folded then .folded else .literal)
  return { (l.moveTo c).emit t with keyAllowed := true }

/-- A plain scalar. After one that went over its line a key may start. -/
def plain (l : Lexer) : Option Lexer := do
  let l ← l.offerSlot
  let (text, overLine, c) ← readPlain l.inFlow (l.indent + 1) l.cursor
  return { (l.moveTo c).emit (.scalar (String.ofList text) .plain) with keyAllowed := overLine }

/-- A token between documents. -/
def documentMark (l : Lexer) (t : Token) : Option Lexer :=
  (l.closeBlocks (-1)).mark 3 false t

def directive (l : Lexer) : Option Lexer := do
  let l ← (l.closeBlocks (-1)).dropSlot
  let (d, c) ← readDirective l.cursor
  return { (l.moveTo c).emit (.directive d) with keyAllowed := false }

/-- Passes what stands between tokens: spaces, comments and line breaks, a byte-order mark at
the start of a line, and tabs where no key may start. -/
def skipToToken : (fuel : Nat) → Lexer → Lexer
  | 0, l => l
  | fuel + 1, l =>
    let c := l.cursor
    let c := if c.column = 0 && c.sees (Char.ofNat 0xFEFF) then c.skip else c
    -- outside brackets, a tab where a key may start would be indentation
    let tabs := l.inFlow || !l.keyAllowed
    let c := c.skipWhile fun x => x = ' ' || (tabs && x = '\t')
    let c := if c.sees '#' then c.skipWhile fun x => !isBreak x else c
    if c.atBreak then
      skipToToken fuel { l.moveTo c.skipLine with keyAllowed := l.keyAllowed || !l.inFlow }
    else l.moveTo c

/-- Whether a character can start a plain scalar, by itself or because of the one after it. -/
def startsPlain (l : Lexer) (x : Char) : Bool :=
  let c := l.cursor
  !(c.spaceAt 0 || "-?:,[]\x7b\x7d#&*!|>'\"%@`".toList.contains x)
    || (x = '-' && !(c.ahead 1).any isBlank)
    || (!l.inFlow && (x = '?' || x = ':') && !c.spaceAt 1)

/-- Reads the token that starts with a character at the cursor. -/
def next (l : Lexer) (x : Char) : Option Lexer :=
  let c := l.cursor
  if c.column = 0 && x = '%' then l.directive
  else if c.atDocumentMark '-' then l.documentMark .documentStart
  else if c.atDocumentMark '.' then l.documentMark .documentEnd
  else if x = '[' then l.openFlow .flowSequenceStart
  else if x = '\x7b' then l.openFlow .flowMappingStart
  else if x = ']' then l.closeFlow .flowSequenceEnd
  else if x = '\x7d' then l.closeFlow .flowMappingEnd
  else if x = ',' then l.mark 1 true .flowEntry
  else if x = '-' && c.spaceAt 1 then l.blockEntry
  else if x = '?' && (l.inFlow || c.spaceAt 1) then l.keyMark
  else if x = ':' && (l.inFlow || c.spaceAt 1) then l.valueMark
  else if x = '*' then l.keyable fun c => (readAnchor c).map fun p => (.alias p.1, p.2)
  else if x = '&' then l.keyable fun c => (readAnchor c).map fun p => (.anchor p.1, p.2)
  else if x = '!' then l.keyable fun c => (readTag l.inFlow c).map fun p => (.tag p.1, p.2)
  else if x = '|' && !l.inFlow then l.block false
  else if x = '>' && !l.inFlow then l.block true
  else if x = '\'' then l.quoted true
  else if x = '"' then l.quoted false
  else if l.startsPlain x then l.plain
  else none

/-- Reads tokens to the end of the text. -/
def run : (fuel : Nat) → Lexer → Option Lexer
  | 0, _ => none
  | fuel + 1, l => do
    let l ← (skipToToken (l.cursor.rest.length + 1) l).refresh
    let l := l.closeBlocks l.cursor.column
    match l.cursor.peek with
    | none =>
      -- a required key that never came is refused at the end as well
      let l ← (l.closeBlocks (-1)).dropSlot
      return l.emit .streamEnd
    | some x => run fuel (← l.next x)

end Lexer

/-- The tokens of a text; `none` when it cannot be cut into tokens. -/
def Token.ofText? (text : List Char) : Option (List Token) :=
  if text.all isAllowed then
    (Lexer.run (text.length + 2) (Lexer.start text)).map fun l => l.tokens.reverse
  else none

end Chartkeeper.Yaml
