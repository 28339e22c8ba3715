import Chartkeeper.Composition.Basic
import Chartkeeper.Yaml.Node.Decode
import Chartkeeper.Yaml.Node.Reader
import Chartkeeper.Yaml.Text.Block
/-!
# Label stamps

A label stamp marks every object of a rendered manifest as belonging to a composition. It
changes the labels in the metadata of an object and nothing else; documents that hold nothing
are dropped, and documents that are no objects stay as they are.
-/

namespace Chartkeeper

/-- The labels that a composition leaves on its objects. -/
structure LabelStamp where
  labels : Table String
  deriving DecidableEq, Repr, Inhabited

namespace LabelStamp

/-- The stamp of a composition that is served as a resource, on a platform. -/
def of (c : Composition) (resource : ApiResource) (platform : String) : LabelStamp :=
  ⟨Table.ofRows
    [("krateo.io/composition-id", c.uid),
      ("krateo.io/composition-name", c.name),
      ("krateo.io/composition-namespace", c.namespaceName),
      ("krateo.io/composition-group", resource.group),
      ("krateo.io/composition-version", resource.version),
      ("krateo.io/composition-resource", resource.resource),
      ("krateo.io/management-namespace", platform)]⟩

/-- Sets the labels of the stamp in a table of labels. -/
def mark (s : LabelStamp) (labels : Table Json) : Table Json :=
  s.labels.foldl (fun t row => t.insert row.1 (.str row.2)) labels

/-- Stamps the metadata of an object; labels that are no object are replaced. -/
def markMetadata (s : LabelStamp) (metadata : Table Json) : Table Json :=
  let labels := ((metadata.get? "labels").bind Json.obj?).getD []
  metadata.insert "labels" (.obj (s.mark labels))

/-- Stamps a document. Missing metadata are created; metadata that are no object stay. -/
def stamp (s : LabelStamp) (v : Json) : Json :=
  match v with
  | .obj fields =>
    match (Table.get? "metadata" fields).getD (.obj []) with
    | .obj metadata => .obj (Table.insert "metadata" (.obj (s.markMetadata metadata)) fields)
    | _ => v
  | _ => v

/-- The values of the documents of a text that hold one, in order. -/
def documents? (manifest : String) : Option (List Json) := do
  let documents ← Yaml.Document.ofText? manifest
  let values ← documents.mapM Yaml.Document.json?
  return values.filterMap id

/-- The text of a stream of documents. -/
def streamText (documents : List Json) : String :=
  String.intercalate "---\n" (documents.map Json.yaml)

/-- Stamps every document of a manifest. -/
def render (s : LabelStamp) (manifest : String) : Except Fault String :=
  match documents? manifest with
  | some found => .ok (streamText (found.map s.stamp))
  | none => .error (.postRender "not a stream of documents")

end LabelStamp

end Chartkeeper
