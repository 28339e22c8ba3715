import Chartkeeper.Manifest.Object
import Chartkeeper.Yaml.Node.Basic
import Chartkeeper.Yaml.Plain
/-!
# What documents hold

Reads a document as a JSON value or as the outline of an object. Where a text is wanted any
scalar will do, as it is written; where any value is wanted, plain scalars are resolved and
tags convert them. Nesting is limited to 128 levels, and aliases to a hundred for every step of
walking through the document.
-/

namespace Chartkeeper.Yaml

/-- A step of decoding, with the number of aliases that may still be followed. -/
abbrev Decode := StateT Nat Option

namespace Decode

/-- The node that a node stands for: itself, or the one its alias leads to. -/
def follow (d : Document) : Node → Decode Node
  | .alias id => do
    match ← get with
    | 0 => failure
    | left + 1 =>
      set left
      match d.anchors.lookup id with
      | some n => return n
      | none => failure
  | n => return n

/-- A scalar, as it is written. -/
def text (d : Document) (n : Node) : Decode String := do
  match ← follow d n with
  | .scalar _ _ s => return s
  | _ => failure

/-- The entries of a mapping; an empty plain scalar counts as a mapping without entries. -/
def entries (d : Document) (n : Node) : Decode (List (Node × Node)) := do
  match ← follow d n with
  | .map _ entries => return entries
  | .scalar _ style s => if s.isEmpty && style = .plain then return [] else failure
  | _ => failure

/-! ## Any value -/

/-- The tags that convert a scalar. -/
def standardTag (name : String) : Tag :=
  Tag.ofText ("tag:yaml.org,2002:" ++ name)

/-- A number with a fraction as a value. What is no number is null. -/
def floatJson : Plain.Float → Json
  | .finite x => .float x
  | .special => .null

/-- A whole number as a value, if it fits. -/
def intJson? (n : Int) : Option Json :=
  if Json.intInRange n then some (.int n) else none

/-- What a plain scalar stands for, as a value. -/
def plainJson? (s : String) : Option Json :=
  match Plain.value s with
  | .null => some .null
  | .bool b => some (.bool b)
  | .int n => intJson? n
  | .float x => some (floatJson x)
  | .text => some (.str s)

/-- Whether a tag is local, which no value can carry. -/
def isLocal (tag : Option Tag) : Bool :=
  match tag with
  | some bytes => bytes.head? == some 0x21 && (String.fromUTF8? ⟨bytes.toArray⟩).isSome
  | none => false

/-- A scalar as a value. -/
def scalarJson? (tag : Option Tag) (style : Style) (s : String) : Option Json :=
  match tag with
  | none => if style = .plain then plainJson? s else some (.str s)
  | some bytes =>
    if isLocal tag then none
    else if bytes = standardTag "bool" then (Plain.bool? s).map .bool
    else if bytes = standardTag "int" then (Plain.int? s).bind intJson?
    else if bytes = standardTag "float" then (Plain.float? s).map floatJson
    else if bytes = standardTag "null" then if Plain.isNull s then some .null else none
    else if bytes.head? = some 0x21 && style = .plain then plainJson? s
    else some (.str s)

/-- A node as a value, with a number of levels that it may nest. Of two entries with one key
the later one stays. -/
def json (d : Document) (levels : Nat) (n : Node) : Decode Json := do
  match ← follow d n with
  | .scalar tag style s => StateT.lift (scalarJson? tag style s)
  | .seq tag items =>
    match levels with
    | 0 => failure
    | levels + 1 =>
      if isLocal tag then failure
      return .arr (← items.mapM (json d levels))
  | .map tag entries =>
    match levels with
    | 0 => failure
    | levels + 1 =>
      if isLocal tag then failure
      let rows ← entries.mapM fun (k, v) => do
        let key ← text d k
        return (key, ← json d levels v)
      return .ofRows rows
  | .alias _ => failure

/-! ## Outlines -/

/-- A table of texts; of two entries with one key the later one stays. -/
def texts (d : Document) (n : Node) : Decode (Table String) := do
  let rows ← (← entries d n).mapM fun (k, v) => do
    let key ← text d k
    return (key, ← text d v)
  return Table.ofRows rows

/-- Reads the columns of a record. Other entries are passed over; a column that comes again is
refused. -/
def columns {α : Type} (d : Document) (read : String → Option (Node → α → Decode α)) :
    (seen : List String) → List (Node × Node) → α → Decode α
  | _, [], a => return a
  | seen, (k, v) :: rest, a => do
    let key ← text d k
    match read key with
    | some set =>
      if seen.contains key then failure
      columns d read (key :: seen) rest (← set v a)
    | none => columns d read seen rest a

/-- Reads the metadata of an outline into it. -/
def metadata (d : Document) (n : Node) (o : Outline) : Decode Outline := do
  columns d
    (fun
      | "name" => some fun v o => return { o with name := ← text d v }
      | "namespace" => some fun v o => return { o with namespaceName := ← text d v }
      | "annotations" => some fun v o => return { o with annotations := ← texts d v }
      | _ => none)
    [] (← entries d n) o

/-- A node as an outline. -/
def outline (d : Document) (n : Node) : Decode Outline := do
  columns d
    (fun
      | "apiVersion" => some fun v o => return { o with apiVersion := ← text d v }
      | "kind" => some fun v o => return { o with kind := ← text d v }
      | "metadata" => some (metadata d)
      | _ => none)
    [] (← entries d n) (Outline.of "" "" "" "")

/-- A node as an object with all its fields. -/
def freeObject (d : Document) (levels : Nat) (n : Node) : Decode FreeObject := do
  match levels with
  | 0 => failure
  | levels + 1 =>
    let rows ← (← entries d n).mapM fun (k, v) => do
      let key ← text d k
      return (key, ← json d levels v)
    return ⟨Table.ofRows rows⟩

end Decode

namespace Document

/-- How deep a value may nest. -/
def levels : Nat := 128

/-- Whether the root of a document says that there is nothing, plainly or by its tag; `none`
when its tag says so and its text does not. -/
def rootIsNull? : Node → Option Bool
  | .scalar tag .plain s =>
    if tag = some (Decode.standardTag "null") then
      if Plain.isNull s then some true else none
    else some (tag.isNone && (s.isEmpty || Plain.isNull s))
  | _ => some false

/-- Decodes a document that may hold nothing: `some none` when it does. -/
def decode? {α : Type} (d : Document) (read : Node → Decode α) : Option (Option α) :=
  match d.root with
  | none => some none
  | some root =>
    let body : Decode (Option α) := do
      let n ← Decode.follow d root
      match rootIsNull? n with
      | none => failure
      | some true => return none
      | some false => return some (← read n)
    (body.run (100 * d.steps)).map Prod.fst

/-- The value of a document, if it holds one. -/
def json? (d : Document) : Option (Option Json) :=
  d.decode? (Decode.json d levels)

/-- The outline of a document, if it holds one. -/
def outline? (d : Document) : Option (Option Outline) :=
  d.decode? (Decode.outline d)

/-- The object of a document, if it holds one. -/
def freeObject? (d : Document) : Option (Option FreeObject) :=
  d.decode? (Decode.freeObject d levels)

end Document

end Chartkeeper.Yaml
