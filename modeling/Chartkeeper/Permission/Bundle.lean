import Chartkeeper.Fault
import Chartkeeper.Permission.Need
/-!
# Permission bundles

The permission objects of one composition, made from what its chart needs: in each namespace a
role with a binding, for the whole cluster a role if anything is needed there, and a role that
lets the controller read the composition's definition. In the composition's own namespace the
role also covers the composition itself. Everything is bound to one service account.
-/

namespace Chartkeeper

/-- The permission objects of a composition, in the order in which they are described. -/
structure Bundle where
  objects : List PermissionObject
  deriving DecidableEq, Repr, Inhabited

namespace Bundle

def roles (b : Bundle) : List PermissionObject :=
  b.objects.filter fun o => !o.isBinding

def bindings (b : Bundle) : List PermissionObject :=
  b.objects.filter PermissionObject.isBinding

/-- The order in which a bundle is applied: a role is there before it is bound. -/
def applyOrder (b : Bundle) : List PermissionObject :=
  b.roles ++ b.bindings

/-- The order in which a bundle is removed: a binding is gone before its role is. -/
def removeOrder (b : Bundle) : List PermissionObject :=
  b.bindings ++ b.roles

def ofJson? (v : Json) : Option Bundle := do
  let r ← Row.ofJson? 1 v
  let objects ← r.required 0 "objects" (Json.list? PermissionObject.ofJson?)
  return ⟨objects⟩

end Bundle

/-- The identity that everything is bound to. -/
structure ServiceAccount where
  name : String
  namespaceName : String
  deriving DecidableEq, Repr, Inhabited

namespace ServiceAccount

/-- The account as the subject of a binding. -/
def subject (a : ServiceAccount) : Subject :=
  ⟨"ServiceAccount", a.name, a.namespaceName⟩

/-- The binding of a role in a namespace, of the same name. -/
def bind (a : ServiceAccount) (name namespaceName : String) : PermissionObject :=
  .roleBinding name namespaceName ⟨permissionGroup, "Role", name⟩ [a.subject]

/-- The binding of a role of the whole cluster, of the same name. -/
def bindCluster (a : ServiceAccount) (name : String) : PermissionObject :=
  .clusterRoleBinding name ⟨permissionGroup, "ClusterRole", name⟩ [a.subject]

end ServiceAccount

/-- Which composition a bundle is for, and which definition it has. -/
structure Owner where
  name : String
  namespaceName : String
  resource : ApiResource
  definition : Definition
  deriving DecidableEq, Repr, Inhabited

namespace Owner

/-- What the inspector is asked about. -/
def inspection (o : Owner) : Inspection :=
  ⟨o.name, o.namespaceName, o.resource, o.definition.name, o.definition.namespaceName⟩

/-- The rule that lets the controller work on the composition itself. -/
def selfRule (o : Owner) : Rule :=
  ⟨[o.resource.group], [o.resource.resource, o.resource.resource ++ "/status"], [o.name],
    ["get", "list", "watch", "update", "patch"]⟩

/-- The rule that lets the controller read the definition. -/
def definitionRule (o : Owner) : Rule :=
  ⟨[o.definition.resource.group], [o.definition.resource.resource], [o.definition.name],
    ["get", "list", "watch"]⟩

/-- The name of the role in a namespace: the base name in the composition's own one, with the
namespace after it elsewhere. -/
def roleName (o : Owner) (base space : String) : String :=
  if space = o.namespaceName then base else base ++ "-" ++ space

/-- The name of the role for the whole cluster. -/
def clusterRoleName (o : Owner) (base : String) : String :=
  o.namespaceName ++ "-" ++ base

/-- The name of the role for the definition. -/
def definitionRoleName (o : Owner) (base : String) : String :=
  o.clusterRoleName base ++ "-definition"

/-- The rules in a namespace. -/
def spaceRules (o : Owner) (space : String) (need : Need) : List Rule :=
  need.rules ++ (if space = o.namespaceName then [o.selfRule] else [])

/-- The roles of a bundle. -/
def roles (o : Owner) (base : String) (needs : Needs) : List PermissionObject :=
  needs.spaces.map (fun row =>
      .role (o.roleName base row.1) row.1 (o.spaceRules row.1 row.2))
    ++ (if needs.cluster.isEmpty then []
      else [.clusterRole (o.clusterRoleName base) needs.cluster.rules])
    ++ [.clusterRole (o.definitionRoleName base) [o.definitionRule]]

/-- The binding of a role, of the same name and in the same scope. -/
def bindingOf (account : ServiceAccount) : PermissionObject → PermissionObject
  | .role name namespaceName _ => account.bind name namespaceName
  | .clusterRole name _ => account.bindCluster name
  | binding => binding

/-- The bundle for what a chart needs. -/
def bundle (o : Owner) (account : ServiceAccount) (base : String) (needs : Needs) : Bundle :=
  let roles := o.roles base needs
  ⟨roles ++ roles.map (bindingOf account)⟩

/-- Why no bundle can be made, if so: it needs a base name, an account and a namespace. -/
def check (o : Owner) (account : ServiceAccount) (base : String) : Except Fault Unit :=
  if base.isEmpty then .error (.permission "base name is empty")
  else if account.name.isEmpty || account.namespaceName.isEmpty then
    .error (.permission "service account identity is not configured")
  else if o.namespaceName.isEmpty then
    .error (.permission ("composition " ++ o.name ++ " has no namespace"))
  else .ok ()

end Owner

end Chartkeeper
