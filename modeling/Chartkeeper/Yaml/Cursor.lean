/-!
# Places in a YAML text

A cursor is a place in a text: what is left, and the number of characters, lines and columns
before it. The classes of characters are those of YAML 1.1: a blank is a space or a tab, and
there are five characters that break a line.
-/

namespace Chartkeeper.Yaml

/-- A space or a tab. -/
def isBlank (c : Char) : Bool :=
  c = ' ' || c = '\t'

/-- A character that breaks a line. -/
def isBreak (c : Char) : Bool :=
  c = '\r' || c = '\n' || c.toNat = 0x85 || c.toNat = 0x2028 || c.toNat = 0x2029

/-- A character of names: of anchors, tag handles and directives. -/
def isName (c : Char) : Bool :=
  c.isAlphanum || c = '_' || c = '-'

/-- A character that may stand in a text at all. -/
def isAllowed (c : Char) : Bool :=
  let n := c.toNat
  n = 0x09 || n = 0x0A || n = 0x0D || (0x20 ≤ n && n ≤ 0x7E) || n = 0x85
    || (0xA0 ≤ n && n ≤ 0xD7FF) || (0xE000 ≤ n && n ≤ 0xFFFD) || 0x10000 ≤ n

/-- A place in a text. -/
structure Cursor where
  rest : List Char
  index : Nat
  line : Nat
  column : Nat
  deriving Inhabited

namespace Cursor

def start (text : List Char) : Cursor := ⟨text, 0, 0, 0⟩

/-- The character at a distance. -/
def ahead (c : Cursor) (n : Nat) : Option Char :=
  c.rest[n]?

def peek (c : Cursor) : Option Char :=
  c.rest.head?

/-- Whether the next character is this one. -/
def sees (c : Cursor) (x : Char) : Bool :=
  c.peek == some x

/-- Whether the character at a distance is a blank, a line break or the end. -/
def spaceAt (c : Cursor) (n : Nat) : Bool :=
  match c.ahead n with
  | some x => isBlank x || isBreak x
  | none => true

def atBlank (c : Cursor) : Bool :=
  (c.peek.map isBlank).getD false

def atBreak (c : Cursor) : Bool :=
  (c.peek.map isBreak).getD false

def atLineEnd (c : Cursor) : Bool :=
  (c.peek.map isBreak).getD true

def atEnd (c : Cursor) : Bool :=
  c.rest.isEmpty

/-- Passes one character that breaks no line. -/
def skip (c : Cursor) : Cursor :=
  ⟨c.rest.drop 1, c.index + 1, c.line, c.column + 1⟩

/-- Passes some characters that break no line. -/
def skipN (c : Cursor) (n : Nat) : Cursor :=
  ⟨c.rest.drop n, c.index + n, c.line, c.column + n⟩

/-- Passes a line break, if there is one, and gives what it stands for: a line feed, but the
two separators of Unicode stand for themselves. -/
def readLine (c : Cursor) : List Char × Cursor :=
  match c.rest with
  | '\r' :: '\n' :: rest => (['\n'], ⟨rest, c.index + 2, c.line + 1, 0⟩)
  | x :: rest =>
    if isBreak x then
      let stands := if x.toNat = 0x2028 || x.toNat = 0x2029 then x else '\n'
      ([stands], ⟨rest, c.index + 1, c.line + 1, 0⟩)
    else ([], c)
  | [] => ([], c)

/-- Passes a line break, if there is one. -/
def skipLine (c : Cursor) : Cursor :=
  c.readLine.2

/-- Passes the characters of a class, which breaks no line. -/
def skipWhile (c : Cursor) (p : Char → Bool) : Cursor :=
  c.skipN (c.rest.takeWhile p).length

/-- Reads the characters of a class, which breaks no line. -/
def readWhile (c : Cursor) (p : Char → Bool) : List Char × Cursor :=
  let taken := c.rest.takeWhile p
  (taken, c.skipN taken.length)

/-- Passes blanks, and a comment if one follows. -/
def skipComment (c : Cursor) : Cursor :=
  let c := c.skipWhile isBlank
  if c.sees '#' then c.skipWhile fun x => !isBreak x else c

/-- Whether a line starts here with a mark between documents. -/
def atDocumentMark (c : Cursor) (x : Char) : Bool :=
  c.column = 0 && c.rest.take 3 == [x, x, x] && c.spaceAt 3

/-- Whether a line starts here with either mark between documents. -/
def atAnyDocumentMark (c : Cursor) : Bool :=
  c.atDocumentMark '-' || c.atDocumentMark '.'

end Cursor

end Chartkeeper.Yaml
