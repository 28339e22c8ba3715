import Chartkeeper.Manifest.Object
import Chartkeeper.Resource.Mapper
/-!
# Managed resources

The objects that a release put into the cluster, with the paths under which they are found.
They are resolved from the outlines of a manifest, in order; the first kind that cannot be
mapped fails the whole list.
-/

namespace Chartkeeper

/-- An object of a release, with its path. -/
structure ManagedResource where
  apiVersion : String
  resource : String
  name : String
  namespaceName : String
  path : String
  deriving DecidableEq, Repr, Inhabited

namespace ManagedResource

/-- The columns of the written form, in order. An empty namespace is left out. -/
def rows (m : ManagedResource) : List (String × Json) :=
  [("apiVersion", .str m.apiVersion), ("resource", .str m.resource), ("name", .str m.name)]
    ++ Json.textUnlessEmpty "namespace" m.namespaceName ++ [("path", .str m.path)]

def toJson (m : ManagedResource) : Json :=
  .ofRows m.rows

/-- Reads the written form; the namespace may be missing. -/
def ofJson? (v : Json) : Option ManagedResource := do
  let r ← Row.ofJson? 5 v
  let apiVersion ← r.required 0 "apiVersion" Json.str?
  let resource ← r.required 1 "resource" Json.str?
  let name ← r.required 2 "name" Json.str?
  let namespaceName ← r.defaulted 3 "namespace" Json.str? ""
  let path ← r.required 4 "path" Json.str?
  return ⟨apiVersion, resource, name, namespaceName, path⟩

/-- The managed resource of an outline. The namespace of a cluster-wide object is dropped,
whatever the manifest says. -/
def ofOutline (mapper : Mapper) (o : Outline) : Except Fault ManagedResource := do
  let kind := ApiKind.ofManifest o.apiVersion o.kind
  let resource ← Fault.during
    ("getting GVR for " ++ o.apiVersion ++ "/" ++ o.kind ++ " with name " ++ o.name
      ++ " and namespace " ++ o.namespaceName)
    (mapper.resource kind)
  let namespaced ← Fault.during ("getting REST mapping for " ++ kind.text) (mapper.isNamespaced kind)
  let namespaceName := if namespaced then o.namespaceName else ""
  return ⟨o.apiVersion, resource.resource, o.name, namespaceName,
    resource.path namespaceName o.name⟩

/-- The managed resources of a manifest's outlines. -/
def ofOutlines (mapper : Mapper) : List Outline → Except Fault (List ManagedResource)
  | [] => .ok []
  | o :: rest => do
    let m ← ofOutline mapper o
    let ms ← ofOutlines mapper rest
    return m :: ms

end ManagedResource

end Chartkeeper
