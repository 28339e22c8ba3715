import Chartkeeper.Json.Row
import Chartkeeper.Permission.Object
import Chartkeeper.Release.Package
/-!
# What a chart needs

The inspector reports which resources a chart would create, and where. From the report only the
pairs of group and resource matter, by namespace and for the whole cluster: they are kept in
tables, so the order of the report and repetitions in it are forgotten.
-/

namespace Chartkeeper

/-- A resource that a chart creates in a namespace, or for the whole cluster. -/
structure Requirement where
  group : String
  version : String
  resource : String
  namespaceName : String
  deriving DecidableEq, Repr, Inhabited

namespace Requirement

def toJson (r : Requirement) : Json :=
  .ofRows [("group", .str r.group), ("version", .str r.version), ("resource", .str r.resource),
    ("namespace", .str r.namespaceName)]

/-- Reads the written form; group and namespace may be missing. -/
def ofJson? (v : Json) : Option Requirement := do
  let r ← Row.ofJson? 4 v
  let group ← r.defaulted 0 "group" Json.str? ""
  let version ← r.required 1 "version" Json.str?
  let resource ← r.required 2 "resource" Json.str?
  let namespaceName ← r.defaulted 3 "namespace" Json.str? ""
  return ⟨group, version, resource, namespaceName⟩

end Requirement

/-- What the inspector is asked about: a composition and its definition. -/
structure Inspection where
  name : String
  namespaceName : String
  resource : ApiResource
  definitionName : String
  definitionNamespace : String
  deriving DecidableEq, Repr, Inhabited

def Inspection.toJson (i : Inspection) : Json :=
  .ofRows [("compositionName", .str i.name), ("compositionNamespace", .str i.namespaceName),
    ("compositionGvr", i.resource.toJson), ("compositionDefinitionName", .str i.definitionName),
    ("compositionDefinitionNamespace", .str i.definitionNamespace)]

/-- Resources that have to be managed: by group, the names of the resources. -/
abbrev Need := Table (Table Unit)

namespace Need

/-- The verbs of full management. -/
def verbs : List String := ["get", "list", "watch", "create", "update", "patch", "delete"]

def add (n : Need) (group resource : String) : Need :=
  n.insert group (((n.get? group).getD []).insert resource ())

/-- One rule for each group. -/
def rules (n : Need) : List Rule :=
  n.map fun row => ⟨[row.1], row.2.keys, [], verbs⟩

end Need

/-- What a chart needs in each namespace, and in the whole cluster. -/
structure Needs where
  spaces : Table Need
  cluster : Need
  deriving DecidableEq, Repr, Inhabited

namespace Needs

/-- Adds a requirement; one without a namespace is for the whole cluster. -/
def add (n : Needs) (r : Requirement) : Needs :=
  if r.namespaceName.isEmpty then { n with cluster := n.cluster.add r.group r.resource }
  else
    let need := ((n.spaces.get? r.namespaceName).getD []).add r.group r.resource
    { n with spaces := n.spaces.insert r.namespaceName need }

/-- The needs of a report; the composition's own namespace is always among them. -/
def ofReport (own : String) (report : List Requirement) : Needs :=
  let n := report.foldl add ⟨[], []⟩
  { n with spaces := n.spaces.insertNew own [] }

end Needs

end Chartkeeper
