import Chartkeeper.Json.Text
import Chartkeeper.Yaml.Text.Scalar
/-!
# Values in block style

Values written as YAML documents: two blanks a level, the items of a sequence not indented under
their key, empty collections as in JSON. A key of several lines, or a very long one, is written
in the explicit form with a question mark. Objects are tables, so keys stand in order.
-/

namespace Chartkeeper.Yaml.Written

/-- The longest key in bytes that stands before its colon on one line. -/
def longestSimpleKey : Nat := 128

/-- Whether a key can stand before its colon on one line. -/
def isSimpleKey (key : String) : Bool :=
  key.utf8ByteSize ≤ longestSimpleKey && !key.toList.any isBreak

/-- The text of a value that fills no lines of its own: no text, and no collection but an empty
one. -/
def atom : Json → List Char
  | .float d => (d.text .plain).toList
  | v => v.scalarText.toList

mutual

/-- A value after a mark, in a collection at a column; collections start on the same line. -/
def inline (column : Nat) : Json → List Char
  | .arr (v :: rest) => items (column + 2) false (v :: rest)
  | .obj (f :: rest) => entries (column + 2) false (f :: rest)
  | .arr [] => atom (.arr []) ++ ['\n']
  | .obj [] => atom (.obj []) ++ ['\n']
  | .null => atom .null ++ ['\n']
  | .bool b => atom (.bool b) ++ ['\n']
  | .int n => atom (.int n) ++ ['\n']
  | .float d => atom (.float d) ++ ['\n']
  | .str s => scalarLine (column + 2) s

/-- A value after a key and its colon, in a mapping at a column; collections start on a line of
their own. -/
def underKey (column : Nat) : Json → List Char
  | .arr (v :: rest) => '\n' :: items column true (v :: rest)
  | .obj (f :: rest) => '\n' :: entries (column + 2) true (f :: rest)
  | .arr [] => ' ' :: (atom (.arr []) ++ ['\n'])
  | .obj [] => ' ' :: (atom (.obj []) ++ ['\n'])
  | .null => ' ' :: (atom .null ++ ['\n'])
  | .bool b => ' ' :: (atom (.bool b) ++ ['\n'])
  | .int n => ' ' :: (atom (.int n) ++ ['\n'])
  | .float d => ' ' :: (atom (.float d) ++ ['\n'])
  | .str s => ' ' :: scalarLine (column + 2) s

/-- The items of a sequence at a column. The first is indented only when it starts a line. -/
def items (column : Nat) (indented : Bool) : List Json → List Char
  | [] => []
  | v :: rest =>
    (if indented then pad column else []) ++ '-' :: ' ' :: (inline column v ++ items column true rest)

/-- The entries of a mapping at a column. The first is indented only when it starts a line. -/
def entries (column : Nat) (indented : Bool) : List (String × Json) → List Char
  | [] => []
  | (k, v) :: rest =>
    (if indented then pad column else [])
      ++ (if isSimpleKey k then (scalar (column + 2) k).1 ++ ':' :: underKey column v
        else
          '?' :: ' ' :: (scalarLine (column + 2) k ++ pad column ++ ':' :: ' ' :: inline column v))
      ++ entries column true rest

end

end Chartkeeper.Yaml.Written

namespace Chartkeeper.Json

/-- The value as a YAML document. -/
def yaml (v : Json) : String :=
  String.ofList
    (match v with
    | .str s => Yaml.Written.scalarLine 2 s
    | .arr (w :: rest) => Yaml.Written.items 0 false (w :: rest)
    | .obj (f :: rest) => Yaml.Written.entries 0 false (f :: rest)
    | v => Yaml.Written.atom v ++ ['\n'])

end Chartkeeper.Json
