import Chartkeeper.Composition.Marks
import Chartkeeper.Json.Text
/-!
# Chart values

The values of a chart are the spec of its composition, with the composition's identity merged
in under the key `global`. What the user has set there stays.
-/

namespace Chartkeeper

/-- The values with which a chart is rendered. -/
structure Values where
  fields : Table Json
  deriving Repr, Inhabited

namespace Values

/-- The key under which the identity of a composition stands. -/
def globalKey : String := "global"

/-- The values in a spec: an object, or nothing at all. -/
def ofSpec (c : Composition) : Except Fault Values :=
  match c.spec with
  | .null => .ok ⟨[]⟩
  | .obj fields => .ok ⟨fields⟩
  | other =>
    .error (.invalidRecord ("spec of " ++ c.key ++ " must be an object, got " ++ other.text))

/-- What a chart is told about its composition. -/
def identity (c : Composition) (resource : ApiResource) (platform : String) :
    List (String × Json) :=
  [("compositionId", .str c.uid),
    ("compositionName", .str c.name),
    ("compositionNamespace", .str c.namespaceName),
    ("compositionApiVersion", .str c.apiVersion),
    ("compositionGroup", .str c.apiKind.group),
    ("compositionResource", .str resource.resource),
    ("compositionKind", .str c.kind),
    ("krateoNamespace", .str platform),
    ("gracefullyPaused", .bool c.wantsPause)]

/-- Adds the rows whose keys are not there yet. -/
def fill (rows : List (String × Json)) (t : Table Json) : Table Json :=
  rows.foldl (fun t row => t.insertNew row.1 row.2) t

/-- Merges the identity of a composition in, and says whether there was a place for it: the
user's `global` has to be an object if there is one. -/
def inject (v : Values) (c : Composition) (resource : ApiResource) (platform : String) :
    Values × Except Fault Unit :=
  match (v.fields.get? globalKey).getD (.obj []) with
  | .obj global =>
    let merged := fill (identity c resource platform) global
    (⟨v.fields.insert globalKey (.obj merged)⟩, .ok ())
  | _ => (v, .error (.invalidRecord ("spec.global of " ++ c.key ++ " must be an object")))

/-- The values of a composition: its spec with its identity merged in. -/
def ofComposition (c : Composition) (resource : ApiResource) (platform : String) :
    Except Fault Values := do
  let v ← ofSpec c
  let (v, outcome) := v.inject c resource platform
  outcome
  return v

def get? (v : Values) (key : String) : Option Json :=
  v.fields.get? key

/-- The values as one object. -/
def toJson (v : Values) : Json :=
  .obj v.fields

end Values

end Chartkeeper
