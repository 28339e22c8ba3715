import Chartkeeper.Fault
import Chartkeeper.Resource.Api
import Chartkeeper.Text.Assoc
/-!
# Mapping kinds to resources

A mapper answers two questions about a kind: which resource serves it, and whether its objects
live in namespaces. A catalog is a mapper over registered kinds, whatever their version.
-/

namespace Chartkeeper

/-- What is known of the kinds of a cluster. -/
structure Mapper where
  resource : ApiKind → Except Fault ApiResource
  isNamespaced : ApiKind → Except Fault Bool

/-- How a registered kind is served. -/
structure ServedKind where
  resource : String
  namespaced : Bool
  deriving DecidableEq, Repr

/-- Registered kinds by group and kind. -/
abbrev Catalog := Assoc (String × String) ServedKind

namespace Catalog

/-- Registers a kind, in place of an earlier one of the same group and name. -/
def register (c : Catalog) (group kind resource : String) (namespaced : Bool) : Catalog :=
  Assoc.insert (group, kind) ⟨resource, namespaced⟩ c

/-- The kinds that every cluster serves. -/
def standard : Catalog :=
  [ ("", "Pod", "pods", true),
    ("", "Service", "services", true),
    ("", "ConfigMap", "configmaps", true),
    ("", "Secret", "secrets", true),
    ("", "ServiceAccount", "serviceaccounts", true),
    ("", "PersistentVolumeClaim", "persistentvolumeclaims", true),
    ("", "Namespace", "namespaces", false),
    ("", "Node", "nodes", false),
    ("", "PersistentVolume", "persistentvolumes", false),
    ("apps", "Deployment", "deployments", true),
    ("apps", "StatefulSet", "statefulsets", true),
    ("apps", "DaemonSet", "daemonsets", true),
    ("batch", "Job", "jobs", true),
    ("batch", "CronJob", "cronjobs", true),
    ("networking.k8s.io", "Ingress", "ingresses", true),
    ("rbac.authorization.k8s.io", "Role", "roles", true),
    ("rbac.authorization.k8s.io", "RoleBinding", "rolebindings", true),
    ("rbac.authorization.k8s.io", "ClusterRole", "clusterroles", false),
    ("rbac.authorization.k8s.io", "ClusterRoleBinding", "clusterrolebindings", false) ].foldl
    (fun c (group, kind, resource, namespaced) => c.register group kind resource namespaced) []

/-- How a kind is served. -/
def serve (c : Catalog) (k : ApiKind) : Except Fault ServedKind :=
  match Assoc.get? (k.group, k.kind) c with
  | some served => .ok served
  | none => .error (.mapping k.text "no matches for kind")

/-- The mapper over the registered kinds; the version is the one asked for. -/
def mapper (c : Catalog) : Mapper where
  resource k := (c.serve k).map fun served => ⟨k.group, k.version, served.resource⟩
  isNamespaced k := (c.serve k).map ServedKind.namespaced

end Catalog

/-- The same mapper, except that nothing is known of namespaces. -/
def Mapper.withoutScopes (m : Mapper) (reason : String) : Mapper :=
  { m with isNamespaced := fun k => .error (.mapping k.text reason) }

end Chartkeeper
