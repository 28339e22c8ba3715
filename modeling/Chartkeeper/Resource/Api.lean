import Chartkeeper.Json.Row
import Chartkeeper.Text.Cut
/-!
# Kinds and resources

The coordinates of an object type in the cluster's API: by kind, as manifests name it, and by
resource, as paths and permissions name it. The group of the core API is empty.
-/

namespace Chartkeeper

/-- A group and a version as one text: `group/version`, or the version alone in the core
group. -/
def apiVersionText (group version : String) : String :=
  if group.isEmpty then version else group ++ "/" ++ version

/-- The coordinates of an object type by kind. -/
structure ApiKind where
  group : String
  version : String
  kind : String
  deriving DecidableEq, Repr, Inhabited

namespace ApiKind

/-- The coordinates in a manifest: the group ends at the first slash of the API version. -/
def ofManifest (apiVersion kind : String) : ApiKind :=
  match Text.cutAt '/' apiVersion.toList with
  | some (group, version) => ⟨String.ofList group, String.ofList version, kind⟩
  | none => ⟨"", apiVersion, kind⟩

/-- The API version as manifests write it. -/
def apiVersion (k : ApiKind) : String :=
  apiVersionText k.group k.version

/-- How messages name a kind. -/
def text (k : ApiKind) : String :=
  k.apiVersion ++ ", Kind=" ++ k.kind

def toJson (k : ApiKind) : Json :=
  .ofRows [("group", .str k.group), ("version", .str k.version), ("kind", .str k.kind)]

/-- Reads the written form; the group may be missing. -/
def ofJson? (v : Json) : Option ApiKind := do
  let r ← Row.ofJson? 3 v
  let group ← r.defaulted 0 "group" Json.str? ""
  let version ← r.required 1 "version" Json.str?
  let kind ← r.required 2 "kind" Json.str?
  return ⟨group, version, kind⟩

end ApiKind

/-- The coordinates of an object type by resource. -/
structure ApiResource where
  group : String
  version : String
  resource : String
  deriving DecidableEq, Repr, Inhabited

namespace ApiResource

/-- The API version as manifests write it. -/
def apiVersion (r : ApiResource) : String :=
  apiVersionText r.group r.version

/-- How messages name a resource. -/
def text (r : ApiResource) : String :=
  r.apiVersion ++ ", Resource=" ++ r.resource

/-- The path of an object of this type. A name without a namespace is cluster-wide. -/
def path (r : ApiResource) (namespaceName name : String) : String :=
  let api :=
    if r.group.isEmpty then "/api/" ++ r.version else "/apis/" ++ r.group ++ "/" ++ r.version
  if namespaceName.isEmpty then api ++ "/" ++ r.resource ++ "/" ++ name
  else api ++ "/namespaces/" ++ namespaceName ++ "/" ++ r.resource ++ "/" ++ name

def toJson (r : ApiResource) : Json :=
  .ofRows [("group", .str r.group), ("version", .str r.version), ("resource", .str r.resource)]

/-- Reads the written form; the group may be missing. -/
def ofJson? (v : Json) : Option ApiResource := do
  let r ← Row.ofJson? 3 v
  let group ← r.defaulted 0 "group" Json.str? ""
  let version ← r.required 1 "version" Json.str?
  let resource ← r.required 2 "resource" Json.str?
  return ⟨group, version, resource⟩

end ApiResource

end Chartkeeper
