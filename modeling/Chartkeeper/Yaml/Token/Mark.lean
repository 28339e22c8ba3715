import Chartkeeper.Digest
import Chartkeeper.Text.Hex
import Chartkeeper.Yaml.Cursor
/-!
# Tags, anchors and directives in a YAML text

Reads what stands before a node or before a document. A tag is a sequence of bytes, since an
escape in it stands for a byte.
-/

namespace Chartkeeper.Yaml

/-- The bytes of a tag or of a part of one. -/
abbrev Tag := List UInt8

def Tag.ofText (s : String) : Tag := Digest.bytes s

/-- Reads the name of an anchor or of an alias, after its indicator. -/
def readAnchor (c : Cursor) : Option (String × Cursor) :=
  let (name, c) := c.skip.readWhile isName
  let ends := c.spaceAt 0 || (c.peek.map fun x => "?:,]\x7d%@`".toList.contains x).getD false
  if name.isEmpty || !ends then none else some (String.ofList name, c)

/-- The characters of a tag, apart from those of names. A tag in angle brackets may also hold
brackets and commas. -/
def isTagMark (verbatim : Bool) (c : Char) : Bool :=
  ";/?:@&=+$.%!~*'()".toList.contains c || (verbatim && ",[]".toList.contains c)

/-- Reads one escaped byte. -/
def readByte (c : Cursor) : Option (UInt8 × Cursor) :=
  match c.rest with
  | '%' :: a :: b :: _ => do
    let a ← Text.hexValue? a
    let b ← Text.hexValue? b
    return ((16 * a + b).toUInt8, c.skipN 3)
  | _ => none

/-- The number of bytes of the character that starts with a byte. -/
def widthOf? (byte : UInt8) : Option Nat :=
  let n := byte.toNat
  if n < 0x80 then some 1
  else if 0xC0 ≤ n && n < 0xE0 then some 2
  else if 0xE0 ≤ n && n < 0xF0 then some 3
  else if 0xF0 ≤ n && n < 0xF8 then some 4
  else none

/-- Reads the escaped bytes that continue a character. -/
def readContinuation : (count : Nat) → Cursor → Option (Tag × Cursor)
  | 0, c => some ([], c)
  | count + 1, c => do
    let (byte, c) ← readByte c
    if byte.toNat < 0x80 || 0xC0 ≤ byte.toNat then none
    let (more, c) ← readContinuation count c
    return (byte :: more, c)

/-- Reads the characters of a tag; an escape stands for the bytes of one character. -/
def readTagBytes (verbatim : Bool) : (fuel : Nat) → Cursor → Option (Tag × Cursor)
  | 0, c => some ([], c)
  | fuel + 1, c =>
    match c.peek with
    | none => some ([], c)
    | some x =>
      if x = '%' then do
        let (byte, c) ← readByte c
        let width ← widthOf? byte
        let (more, c) ← readContinuation (width - 1) c
        let (tail, c) ← readTagBytes verbatim fuel c
        return (byte :: more ++ tail, c)
      else if isName x || isTagMark verbatim x then
        (readTagBytes verbatim fuel c.skip).map fun p => (x.toNat.toUInt8 :: p.1, p.2)
      else some ([], c)

/-- Reads a part of a tag that has at least one character, in addition to those in `start`. -/
def readTagPart (verbatim : Bool) (start : Tag) (started : Bool) (c : Cursor) :
    Option (Tag × Cursor) := do
  let (bytes, rest) ← readTagBytes verbatim (c.rest.length + 1) c
  if bytes.isEmpty && !started then none
  return (start ++ bytes, rest)

/-- Reads a tag handle: an exclamation mark, a name, and a second mark if there is one. -/
def readHandle (c : Cursor) : Option (List Char × Cursor) :=
  if !c.sees '!' then none
  else
    let (name, c) := c.skip.readWhile isName
    if c.sees '!' then some ('!' :: (name ++ ['!']), c.skip) else some ('!' :: name, c)

/-- A tag as it is written: a handle, which is empty for a tag in full, and the rest. -/
structure TagToken where
  handle : Tag
  suffix : Tag
  deriving DecidableEq, Repr

def readTag (inFlow : Bool) (c : Cursor) : Option (TagToken × Cursor) := do
  let (tag, c) ←
    if c.ahead 1 = some '<' then do
      let (suffix, c) ← readTagPart true [] false (c.skipN 2)
      if c.sees '>' then some ((⟨[], suffix⟩ : TagToken), c.skip) else none
    else do
      let (handle, rest) ← readHandle c
      let bytes := Tag.ofText (String.ofList handle)
      if 2 ≤ handle.length && handle.getLast? = some '!' then
        let (suffix, rest) ← readTagPart false [] false rest
        some (⟨bytes, suffix⟩, rest)
      else
        -- no handle after all: what was read is the start of the suffix
        let (suffix, rest) ← readTagPart false (bytes.drop 1) true rest
        let mark := Tag.ofText "!"
        some (if suffix.isEmpty then ⟨[], mark⟩ else ⟨mark, suffix⟩, rest)
  if (inFlow && c.sees ',') || c.spaceAt 0 then some (tag, c) else none

/-- A directive before a document. -/
inductive Directive where
  | version (major minor : Nat)
  | tag (handle shorthand : Tag)

/-- Reads a version number of at most nine digits. -/
def readVersionNumber (c : Cursor) : Option (Nat × Cursor) :=
  let (ds, c) := c.readWhile Char.isDigit
  if ds.isEmpty || 9 < ds.length then none
  else some (ds.foldl (fun n d => 10 * n + (d.toNat - '0'.toNat)) 0, c)

/-- Reads a directive and the rest of its line. -/
def readDirective (c : Cursor) : Option (Directive × Cursor) := do
  let (name, c) := c.skip.readWhile isName
  if name.isEmpty || !c.spaceAt 0 then none
  let (directive, c) ←
    if name = "YAML".toList then do
      let (major, c) ← readVersionNumber (c.skipWhile isBlank)
      if !c.sees '.' then none
      let (minor, c) ← readVersionNumber c.skip
      some (Directive.version major minor, c)
    else if name = "TAG".toList then do
      let (handle, c) ← readHandle (c.skipWhile isBlank)
      if handle.getLast? ≠ some '!' then none
      if !c.atBlank then none
      let (shorthand, c) ← readTagPart true [] false (c.skipWhile isBlank)
      if !c.spaceAt 0 then none
      some (Directive.tag (Tag.ofText (String.ofList handle)) shorthand, c)
    else none
  let c := c.skipComment
  if c.atLineEnd then some (directive, c.skipLine) else none

end Chartkeeper.Yaml
