import Chartkeeper.Json.Row
/-!
# Manifest objects

One object of a manifest in two forms: an outline that keeps the fields by which an object is
found, and the free form that keeps the whole tree. Both answer the same questions and can be
renamed; fields of the wrong type count as absent in the free form.
-/

namespace Chartkeeper

/-- The fields by which an object is found. -/
structure Outline where
  apiVersion : String
  kind : String
  name : String
  namespaceName : String
  annotations : Table String
  deriving DecidableEq, Repr, Inhabited

namespace Outline

/-- An outline without annotations. -/
def of (apiVersion kind name namespaceName : String) : Outline :=
  ⟨apiVersion, kind, name, namespaceName, []⟩

def setName (o : Outline) (name : String) : Outline :=
  { o with name }

def setNamespace (o : Outline) (namespaceName : String) : Outline :=
  { o with namespaceName }

def setAnnotations (o : Outline) (annotations : Table String) : Outline :=
  { o with annotations }

def toJson (o : Outline) : Json :=
  .ofRows [("apiVersion", .str o.apiVersion), ("kind", .str o.kind),
    ("metadata", .ofRows [("name", .str o.name), ("namespace", .str o.namespaceName),
      ("annotations", .ofTexts o.annotations)])]

/-- Reads the metadata of an outline: name, namespace and annotations, each of which may be
missing. -/
def metadata? (v : Json) : Option (String × String × Table String) := do
  let r ← Row.ofJson? 3 v
  let name ← r.defaulted 0 "name" Json.str? ""
  let namespaceName ← r.defaulted 1 "namespace" Json.str? ""
  let annotations ← r.defaulted 2 "annotations" Json.texts? []
  return (name, namespaceName, annotations)

/-- Reads the written form; every field may be missing. -/
def ofJson? (v : Json) : Option Outline := do
  let r ← Row.ofJson? 3 v
  let apiVersion ← r.defaulted 0 "apiVersion" Json.str? ""
  let kind ← r.defaulted 1 "kind" Json.str? ""
  let (name, namespaceName, annotations) ← r.defaulted 2 "metadata" metadata? ("", "", [])
  return ⟨apiVersion, kind, name, namespaceName, annotations⟩

end Outline

/-- An object with all its fields. -/
structure FreeObject where
  fields : Table Json
  deriving Repr, Inhabited

namespace FreeObject

/-- The text of a top-level field, empty when there is none. -/
def topText (o : FreeObject) (key : String) : String :=
  ((o.fields.get? key).bind Json.str?).getD ""

/-- A field of the metadata. -/
def metadata? (o : FreeObject) (key : String) : Option Json :=
  (o.fields.get? "metadata").bind (Json.get? key)

/-- The text of a field of the metadata, empty when there is none. -/
def metadataText (o : FreeObject) (key : String) : String :=
  ((o.metadata? key).bind Json.str?).getD ""

def apiVersion (o : FreeObject) : String := o.topText "apiVersion"

def kind (o : FreeObject) : String := o.topText "kind"

def name (o : FreeObject) : String := o.metadataText "name"

def namespaceName (o : FreeObject) : String := o.metadataText "namespace"

/-- The annotations whose values are texts. -/
def annotations (o : FreeObject) : Table String :=
  match (o.metadata? "annotations").bind Json.obj? with
  | some fields => fields.filterMap fun row => row.2.str?.map fun s => (row.1, s)
  | none => []

/-- Changes the metadata, which is made an object first if it is none. -/
def modifyMetadata (o : FreeObject) (f : Table Json → Table Json) : FreeObject :=
  let fields := ((o.fields.get? "metadata").bind Json.obj?).getD []
  ⟨o.fields.insert "metadata" (.obj (f fields))⟩

def setName (o : FreeObject) (name : String) : FreeObject :=
  o.modifyMetadata (Table.insert "name" (.str name))

/-- Sets the namespace; an empty one removes the field. -/
def setNamespace (o : FreeObject) (namespaceName : String) : FreeObject :=
  o.modifyMetadata fun fields =>
    if namespaceName.isEmpty then fields.erase "namespace"
    else fields.insert "namespace" (.str namespaceName)

def setAnnotations (o : FreeObject) (annotations : Table String) : FreeObject :=
  o.modifyMetadata (Table.insert "annotations" (.ofTexts annotations))

def toJson (o : FreeObject) : Json :=
  .obj o.fields

/-- Reads the written form: any object. -/
def ofJson? (v : Json) : Option FreeObject :=
  v.obj?.map FreeObject.mk

end FreeObject

end Chartkeeper
