import Chartkeeper.Json.Row
/-!
# Permission objects

The four kinds of objects that grant rights in a cluster: roles hold rules, bindings give a role
to subjects, and each comes in a form for one namespace and a form for the whole cluster. A
reference is what an object is found by.
-/

namespace Chartkeeper

/-- The API group of permission objects. -/
def permissionGroup : String := "rbac.authorization.k8s.io"

/-- The verbs that are allowed on some resources, or only on those of some names. -/
structure Rule where
  groups : List String
  resources : List String
  names : List String
  verbs : List String
  deriving DecidableEq, Repr, Inhabited

namespace Rule

/-- The written form; an empty list of names is left out. -/
def toJson (r : Rule) : Json :=
  .ofRows ([("apiGroups", .arr (r.groups.map .str)), ("resources", .arr (r.resources.map .str))]
    ++ Json.listUnlessEmpty "resourceNames" Json.str r.names
    ++ [("verbs", .arr (r.verbs.map .str))])

/-- Reads the written form; the names may be missing. -/
def ofJson? (v : Json) : Option Rule := do
  let r ← Row.ofJson? 4 v
  let groups ← r.required 0 "apiGroups" (Json.list? Json.str?)
  let resources ← r.required 1 "resources" (Json.list? Json.str?)
  let names ← r.defaulted 2 "resourceNames" (Json.list? Json.str?) []
  let verbs ← r.required 3 "verbs" (Json.list? Json.str?)
  return ⟨groups, resources, names, verbs⟩

end Rule

/-- Who is given a role. -/
structure Subject where
  kind : String
  name : String
  namespaceName : String
  deriving DecidableEq, Repr, Inhabited

namespace Subject

def toJson (s : Subject) : Json :=
  .ofRows [("kind", .str s.kind), ("name", .str s.name), ("namespace", .str s.namespaceName)]

def ofJson? (v : Json) : Option Subject := do
  let r ← Row.ofJson? 3 v
  let kind ← r.required 0 "kind" Json.str?
  let name ← r.required 1 "name" Json.str?
  let namespaceName ← r.required 2 "namespace" Json.str?
  return ⟨kind, name, namespaceName⟩

end Subject

/-- The role that a binding gives. -/
structure RoleLink where
  group : String
  kind : String
  name : String
  deriving DecidableEq, Repr, Inhabited

namespace RoleLink

def toJson (l : RoleLink) : Json :=
  .ofRows [("apiGroup", .str l.group), ("kind", .str l.kind), ("name", .str l.name)]

def ofJson? (v : Json) : Option RoleLink := do
  let r ← Row.ofJson? 3 v
  let group ← r.required 0 "apiGroup" Json.str?
  let kind ← r.required 1 "kind" Json.str?
  let name ← r.required 2 "name" Json.str?
  return ⟨group, kind, name⟩

end RoleLink

/-- What a permission object is found by. -/
structure Reference where
  kind : String
  name : String
  namespaceName : String
  deriving DecidableEq, Repr, Inhabited

namespace Reference

/-- Whether a reference does not come after another: by kind, then name, then namespace. -/
def le (a b : Reference) : Bool :=
  a.kind < b.kind
    || (a.kind = b.kind
      && (a.name < b.name || (a.name = b.name && a.namespaceName ≤ b.namespaceName)))

def toJson (r : Reference) : Json :=
  .ofRows [("kind", .str r.kind), ("name", .str r.name), ("namespace", .str r.namespaceName)]

/-- Reads the written form; the namespace may be missing. -/
def ofJson? (v : Json) : Option Reference := do
  let r ← Row.ofJson? 3 v
  let kind ← r.required 0 "kind" Json.str?
  let name ← r.required 1 "name" Json.str?
  let namespaceName ← r.defaulted 2 "namespace" Json.str? ""
  return ⟨kind, name, namespaceName⟩

end Reference

/-- A role or a binding. -/
inductive PermissionObject where
  | role (name namespaceName : String) (rules : List Rule)
  | clusterRole (name : String) (rules : List Rule)
  | roleBinding (name namespaceName : String) (link : RoleLink) (subjects : List Subject)
  | clusterRoleBinding (name : String) (link : RoleLink) (subjects : List Subject)
  deriving DecidableEq, Repr

namespace PermissionObject

def kind : PermissionObject → String
  | .role .. => "Role"
  | .clusterRole .. => "ClusterRole"
  | .roleBinding .. => "RoleBinding"
  | .clusterRoleBinding .. => "ClusterRoleBinding"

def name : PermissionObject → String
  | .role name _ _ | .clusterRole name _ | .roleBinding name _ _ _
  | .clusterRoleBinding name _ _ => name

/-- The namespace, empty for an object of the whole cluster. -/
def namespaceName : PermissionObject → String
  | .role _ namespaceName _ | .roleBinding _ namespaceName _ _ => namespaceName
  | .clusterRole .. | .clusterRoleBinding .. => ""

/-- Whether the object gives a role, rather than being one. -/
def isBinding : PermissionObject → Bool
  | .roleBinding .. | .clusterRoleBinding .. => true
  | .role .. | .clusterRole .. => false

/-- What the object is found by. -/
def reference (o : PermissionObject) : Reference :=
  ⟨o.kind, o.name, o.namespaceName⟩

/-- How messages name the object. -/
def title (o : PermissionObject) : String :=
  o.kind ++ " " ++ o.name

def toJson (o : PermissionObject) : Json :=
  .ofRows (("kind", .str o.kind) :: ("name", .str o.name) ::
    match o with
    | .role _ namespaceName rules =>
      [("namespace", .str namespaceName), ("rules", .arr (rules.map Rule.toJson))]
    | .clusterRole _ rules => [("rules", .arr (rules.map Rule.toJson))]
    | .roleBinding _ namespaceName link subjects =>
      [("namespace", .str namespaceName), ("roleRef", link.toJson),
        ("subjects", .arr (subjects.map Subject.toJson))]
    | .clusterRoleBinding _ link subjects =>
      [("roleRef", link.toJson), ("subjects", .arr (subjects.map Subject.toJson))])

/-- The kind in a written form, and what is left to read: all fields of an object, or the items
of a list after the first. -/
def kindAndBody? : Json → Option (String × Json)
  | .obj fields => ((Table.get? "kind" fields).bind Json.str?).map fun kind => (kind, .obj fields)
  | .arr (.str kind :: rest) => some (kind, .arr rest)
  | _ => none

def ofJson? (v : Json) : Option PermissionObject := do
  let (kind, body) ← kindAndBody? v
  let rules? := Json.list? Rule.ofJson?
  let subjects? := Json.list? Subject.ofJson?
  match kind with
  | "Role" =>
    let r ← Row.ofJson? 3 body
    let name ← r.required 0 "name" Json.str?
    let namespaceName ← r.required 1 "namespace" Json.str?
    let rules ← r.required 2 "rules" rules?
    return .role name namespaceName rules
  | "ClusterRole" =>
    let r ← Row.ofJson? 2 body
    let name ← r.required 0 "name" Json.str?
    let rules ← r.required 1 "rules" rules?
    return .clusterRole name rules
  | "RoleBinding" =>
    let r ← Row.ofJson? 4 body
    let name ← r.required 0 "name" Json.str?
    let namespaceName ← r.required 1 "namespace" Json.str?
    let link ← r.required 2 "roleRef" RoleLink.ofJson?
    let subjects ← r.required 3 "subjects" subjects?
    return .roleBinding name namespaceName link subjects
  | "ClusterRoleBinding" =>
    let r ← Row.ofJson? 3 body
    let name ← r.required 0 "name" Json.str?
    let link ← r.required 1 "roleRef" RoleLink.ofJson?
    let subjects ← r.required 2 "subjects" subjects?
    return .clusterRoleBinding name link subjects
  | _ => none

end PermissionObject

end Chartkeeper
