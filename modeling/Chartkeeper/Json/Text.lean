import Chartkeeper.Json.Basic
import Chartkeeper.Text.Hex
/-!
# Written JSON

The compact text of a value, which is hashed, shown in messages and put into rendered charts,
and the indented text of the command line. Characters outside ASCII stand for themselves.
-/

namespace Chartkeeper.Json

/-- How a character stands in a quoted text. -/
def escape (c : Char) : List Char :=
  if c = '"' then ['\\', '"']
  else if c = '\\' then ['\\', '\\']
  else if c = '\n' then ['\\', 'n']
  else if c = '\r' then ['\\', 'r']
  else if c = '\t' then ['\\', 't']
  else if c.toNat = 0x08 then ['\\', 'b']
  else if c.toNat = 0x0C then ['\\', 'f']
  else if c.toNat < 0x20 then ['\\', 'u', '0', '0', Text.hexDigit (c.toNat / 16), Text.hexDigit (c.toNat % 16)]
  else [c]

/-- A text between quotes. -/
def quoted (s : String) : String :=
  String.ofList ('"' :: (s.toList.flatMap escape ++ ['"']))

/-- The text of a value that holds no other value. -/
def scalarText : Json → String
  | .null => "null"
  | .bool true => "true"
  | .bool false => "false"
  | .int n => toString n
  | .float d => d.text .signed
  | .str s => quoted s
  | .arr _ => "[]"
  | .obj _ => "\x7b\x7d"

mutual

/-- The compact text of a value. -/
def text : Json → String
  | .arr items => "[" ++ itemsText items ++ "]"
  | .obj fields => "\x7b" ++ fieldsText fields ++ "\x7d"
  | .null => "null"
  | .bool b => scalarText (.bool b)
  | .int n => scalarText (.int n)
  | .float d => scalarText (.float d)
  | .str s => quoted s

/-- The items of an array, separated by commas. -/
def itemsText : List Json → String
  | [] => ""
  | [v] => text v
  | v :: w :: rest => text v ++ "," ++ itemsText (w :: rest)

/-- The fields of an object, separated by commas. -/
def fieldsText : List (String × Json) → String
  | [] => ""
  | [(k, v)] => quoted k ++ ":" ++ text v
  | (k, v) :: w :: rest => quoted k ++ ":" ++ text v ++ "," ++ fieldsText (w :: rest)

end

/-- The white space of one line at a depth: a line break and two blanks for each level. -/
def lineStart (depth : Nat) : String :=
  String.ofList ('\n' :: List.replicate (2 * depth) ' ')

mutual

/-- The indented text of a value at a depth. Empty arrays and objects stay on their line. -/
def prettyAt (depth : Nat) : Json → String
  | .arr [] => "[]"
  | .arr (v :: rest) =>
    "[" ++ prettyItems (depth + 1) (v :: rest) ++ lineStart depth ++ "]"
  | .obj [] => "\x7b\x7d"
  | .obj (f :: rest) =>
    "\x7b" ++ prettyFields (depth + 1) (f :: rest) ++ lineStart depth ++ "\x7d"
  | .null => "null"
  | .bool b => scalarText (.bool b)
  | .int n => scalarText (.int n)
  | .float d => scalarText (.float d)
  | .str s => quoted s

/-- The items of an array, one line each. -/
def prettyItems (depth : Nat) : List Json → String
  | [] => ""
  | [v] => lineStart depth ++ prettyAt depth v
  | v :: w :: rest => lineStart depth ++ prettyAt depth v ++ "," ++ prettyItems depth (w :: rest)

/-- The fields of an object, one line each. -/
def prettyFields (depth : Nat) : List (String × Json) → String
  | [] => ""
  | [(k, v)] => lineStart depth ++ quoted k ++ ": " ++ prettyAt depth v
  | (k, v) :: w :: rest =>
    lineStart depth ++ quoted k ++ ": " ++ prettyAt depth v ++ "," ++ prettyFields depth (w :: rest)

end

/-- The indented text of a value, two blanks a level. -/
def pretty (v : Json) : String :=
  prettyAt 0 v

end Chartkeeper.Json
