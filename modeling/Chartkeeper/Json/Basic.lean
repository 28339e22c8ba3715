import Chartkeeper.Decimal.Basic
import Chartkeeper.Decimal.Word
import Chartkeeper.Text.Table
/-!
# JSON values

The dynamic values of the library: specs, chart values, manifests in their free form, and the
written form of every record. Whole numbers and numbers with a fraction are apart, objects are
tables.
-/

namespace Chartkeeper

/-- A JSON value. Whole numbers lie between `-2^63` and `2^64 - 1`. -/
inductive Json where
  | null
  | bool (b : Bool)
  | int (n : Int)
  | float (d : Decimal)
  | str (s : String)
  | arr (items : List Json)
  | obj (fields : List (String × Json))
  deriving Repr, Inhabited

namespace Json

/-- Whether a whole number can be a JSON value. -/
def intInRange (n : Int) : Bool :=
  -(Word.half64 : Int) ≤ n && n < (Word.bound64 : Int)

/-- The object with these fields; of two with one key the later one stays. -/
def ofRows (rows : List (String × Json)) : Json :=
  .obj (Table.ofRows rows)

/-- The value of a key, when the value is an object that has it. -/
def get? (key : String) : Json → Option Json
  | .obj fields => Table.get? key fields
  | _ => none

/-- The text, when the value is one. -/
def str? : Json → Option String
  | .str s => some s
  | _ => none

/-- The fields, when the value is an object. -/
def obj? : Json → Option (Table Json)
  | .obj fields => some fields
  | _ => none

def isNull : Json → Bool
  | .null => true
  | _ => false

def isObj : Json → Bool
  | .obj _ => true
  | _ => false

/-- The object that maps each key to a text. -/
def ofTexts (t : Table String) : Json :=
  .obj (t.map fun row => (row.1, .str row.2))

mutual

/-- Whether two values are the same, fractions compared as decimals. -/
def same : Json → Json → Bool
  | .null, .null => true
  | .bool a, .bool b => a == b
  | .int a, .int b => a == b
  | .float a, .float b => a == b
  | .str a, .str b => a == b
  | .arr a, .arr b => sameItems a b
  | .obj a, .obj b => sameFields a b
  | _, _ => false

/-- Whether two lists hold the same values. -/
def sameItems : List Json → List Json → Bool
  | [], [] => true
  | a :: as, b :: bs => same a b && sameItems as bs
  | _, _ => false

/-- Whether two tables hold the same rows. -/
def sameFields : List (String × Json) → List (String × Json) → Bool
  | [], [] => true
  | (k, a) :: as, (l, b) :: bs => k == l && same a b && sameFields as bs
  | _, _ => false

end

instance : BEq Json := ⟨same⟩

end Json

end Chartkeeper
