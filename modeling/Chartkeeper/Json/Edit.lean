import Chartkeeper.Json.Basic
/-!
# Changes of JSON values

Two ways to change a value as a whole: a merge patch, which says in the shape of the value
itself what becomes of each key, and a rewriting of the texts by the keys they stand under.
-/

namespace Chartkeeper.Json

mutual

/-- What a merge patch makes of a value: an object is merged into it, all else takes its
place. -/
def merge (target : Json) : (patch : Json) → Json
  | .obj rows => .obj (mergeRows (target.obj?.getD []) rows)
  | .null => .null
  | .bool b => .bool b
  | .int n => .int n
  | .float d => .float d
  | .str s => .str s
  | .arr items => .arr items

/-- Merges rows into a table; null removes a key. -/
def mergeRows (t : Table Json) : (rows : List (String × Json)) → Table Json
  | [] => t
  | (k, v) :: rest =>
    let t := if v.isNull then t.erase k
      else t.insert k (merge ((Table.get? k t).getD .null) v)
    mergeRows t rest

end

mutual

/-- Rewrites every text that is the value of a key. -/
def mapTexts (f : (key text : String) → String) : Json → Json
  | .arr items => .arr (mapTextsItems f items)
  | .obj rows => .obj (mapTextsRows f rows)
  | .null => .null
  | .bool b => .bool b
  | .int n => .int n
  | .float d => .float d
  | .str s => .str s

/-- Rewrites the texts in a list of values. -/
def mapTextsItems (f : (key text : String) → String) : List Json → List Json
  | [] => []
  | v :: rest => mapTexts f v :: mapTextsItems f rest

/-- Rewrites the texts in a list of rows. -/
def mapTextsRows (f : (key text : String) → String) : List (String × Json) → List (String × Json)
  | [] => []
  | (k, .str s) :: rest => (k, .str (f k s)) :: mapTextsRows f rest
  | (k, v) :: rest => (k, mapTexts f v) :: mapTextsRows f rest

end

end Chartkeeper.Json
