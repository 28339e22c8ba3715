import Chartkeeper.Json.Basic
import Chartkeeper.Text.Table
import Chartkeeper.Time.Rfc3339
/-!
# Records as JSON

How records are read. A record is an object of named columns or a list of them in order;
unknown names are ignored, and a list may not be longer than the record. A column is required,
optional (absent or null), or has a value that stands in when it is missing. Writers are plain
functions to `Json` beside each record.
-/

namespace Chartkeeper

/-- A JSON value seen as a record. -/
inductive Row where
  | named (fields : Table Json)
  | listed (items : List Json)

namespace Row

/-- The record in a value, for a record of that many columns. -/
def ofJson? (columns : Nat) : Json → Option Row
  | .obj fields => some (.named fields)
  | .arr items => if items.length ≤ columns then some (.listed items) else none
  | _ => none

/-- What stands in a column. -/
def cell? (r : Row) (column : Nat) (name : String) : Option Json :=
  match r with
  | .named fields => fields.get? name
  | .listed items => items[column]?

variable {α : Type}

/-- A column that has to be there. -/
def required (r : Row) (column : Nat) (name : String) (read : Json → Option α) : Option α :=
  (r.cell? column name).bind read

/-- A column with a value that stands in for it; null does not. -/
def defaulted (r : Row) (column : Nat) (name : String) (read : Json → Option α)
    (missing : α) : Option α :=
  match r.cell? column name with
  | some v => read v
  | none => some missing

/-- A column that may be missing or null. -/
def optional (r : Row) (column : Nat) (name : String) (read : Json → Option α) :
    Option (Option α) :=
  r.defaulted column name (fun v => if v.isNull then some none else (read v).map some) none

end Row

namespace Json

variable {α : Type}

def bool? : Json → Option Bool
  | .bool b => some b
  | _ => none

/-- Reads a whole number that is not negative and below a bound. -/
def natBelow? (bound : Nat) : Json → Option Nat
  | .int n => if 0 ≤ n && n < bound then some n.toNat else none
  | _ => none

def list? (read : Json → Option α) : Json → Option (List α)
  | .arr items => items.mapM read
  | _ => none

/-- Reads a table of texts. -/
def texts? : Json → Option (Table String)
  | .obj fields => Table.mapValues? str? fields
  | _ => none

def instant? (v : Json) : Option Instant :=
  v.str?.bind Instant.readLenient?

/-- Reads one of some names: its text, or an object that maps the name alone to null. -/
def choice? (choices : List (String × α)) : Json → Option α
  | .str s => choices.lookup s
  | .obj [(s, .null)] => choices.lookup s
  | _ => none

/-- The column of a text that is left out when empty. -/
def textUnlessEmpty (name s : String) : List (String × Json) :=
  if s.isEmpty then [] else [(name, .str s)]

/-- The column of a list that is left out when empty. -/
def listUnlessEmpty (name : String) (write : α → Json) (items : List α) :
    List (String × Json) :=
  if items.isEmpty then [] else [(name, .arr (items.map write))]

/-- The column of a table of texts that is left out when empty. -/
def textsUnlessEmpty (name : String) (t : Table String) : List (String × Json) :=
  if t.isEmpty then [] else [(name, ofTexts t)]

/-- A text, or null. -/
def ofText? : Option String → Json
  | some s => .str s
  | none => .null

end Json

end Chartkeeper
