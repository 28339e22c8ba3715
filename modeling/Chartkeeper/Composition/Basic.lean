import Chartkeeper.Composition.Status
/-!
# Compositions

A composition is the record that a user writes to have a chart installed: its spec holds the
values of the chart, its metadata carries labels and annotations, and its status is written by
the controller.
-/

namespace Chartkeeper

/-- What identifies a record, and what is attached to it. -/
structure Metadata where
  name : String
  namespaceName : String
  uid : String
  labels : Table String
  annotations : Table String
  deletionTime : Option Instant
  deriving DecidableEq, Repr, Inhabited

namespace Metadata

/-- The written form. Empty tables and a missing deletion time are left out. -/
def toJson (m : Metadata) : Json :=
  .ofRows ([("name", .str m.name), ("namespace", .str m.namespaceName), ("uid", .str m.uid)]
    ++ Json.textsUnlessEmpty "labels" m.labels
    ++ Json.textsUnlessEmpty "annotations" m.annotations
    ++ (match m.deletionTime with
      | some t => [("deletionTimestamp", .str t.text)]
      | none => []))

/-- Reads the written form; only the name is required. -/
def ofJson? (v : Json) : Option Metadata := do
  let r ← Row.ofJson? 6 v
  let name ← r.required 0 "name" Json.str?
  let namespaceName ← r.defaulted 1 "namespace" Json.str? ""
  let uid ← r.defaulted 2 "uid" Json.str? ""
  let labels ← r.defaulted 3 "labels" Json.texts? []
  let annotations ← r.defaulted 4 "annotations" Json.texts? []
  let deletionTime ← r.optional 5 "deletionTimestamp" Json.instant?
  return ⟨name, namespaceName, uid, labels, annotations, deletionTime⟩

end Metadata

/-- A composition record. -/
structure Composition where
  apiVersion : String
  kind : String
  metadata : Metadata
  spec : Json
  status : Status
  deriving Repr, Inhabited

namespace Composition

/-- A record with nothing but its coordinates. -/
def of (apiVersion kind name namespaceName : String) : Composition :=
  ⟨apiVersion, kind, ⟨name, namespaceName, "", [], [], none⟩, .null, .empty⟩

def withUid (c : Composition) (uid : String) : Composition :=
  { c with metadata := { c.metadata with uid } }

def withSpec (c : Composition) (spec : Json) : Composition :=
  { c with spec }

def withAnnotation (c : Composition) (key value : String) : Composition :=
  { c with
    metadata := { c.metadata with annotations := c.metadata.annotations.insert key value } }

def withLabel (c : Composition) (key value : String) : Composition :=
  { c with metadata := { c.metadata with labels := c.metadata.labels.insert key value } }

def withDeletion (c : Composition) (at? : Option Instant) : Composition :=
  { c with metadata := { c.metadata with deletionTime := at? } }

def name (c : Composition) : String := c.metadata.name

def namespaceName (c : Composition) : String := c.metadata.namespaceName

def uid (c : Composition) : String := c.metadata.uid

/-- The coordinates of the record's own kind. -/
def apiKind (c : Composition) : ApiKind :=
  ApiKind.ofManifest c.apiVersion c.kind

def isDeleting (c : Composition) : Bool :=
  c.metadata.deletionTime.isSome

/-- The key under which the record is stored. -/
def key (c : Composition) : String :=
  c.namespaceName ++ "/" ++ c.name

def toJson (c : Composition) : Json :=
  .ofRows [("apiVersion", .str c.apiVersion), ("kind", .str c.kind),
    ("metadata", c.metadata.toJson), ("spec", c.spec), ("status", c.status.toJson)]

/-- Reads the written form; spec and status may be missing. -/
def ofJson? (v : Json) : Option Composition := do
  let r ← Row.ofJson? 5 v
  let apiVersion ← r.required 0 "apiVersion" Json.str?
  let kind ← r.required 1 "kind" Json.str?
  let metadata ← r.required 2 "metadata" Metadata.ofJson?
  let spec ← r.defaulted 3 "spec" some .null
  let status ← r.defaulted 4 "status" Status.ofJson? .empty
  return ⟨apiVersion, kind, metadata, spec, status⟩

end Composition

end Chartkeeper
