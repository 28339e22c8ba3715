import Chartkeeper.Fault
import Chartkeeper.Permission.Object
import Chartkeeper.Text.Assoc
/-!
# A cluster in memory

The permission objects that a cluster holds, by reference, and a record of what was applied and
deleted. While a reason to fail is set, every call fails and changes nothing.
-/

namespace Chartkeeper

/-- The permission objects of a cluster. -/
structure Cluster where
  objects : Assoc Reference PermissionObject
  applied : List PermissionObject
  deleted : List Reference
  failure : Option String
  deriving DecidableEq, Repr

namespace Cluster

def empty : Cluster := ⟨[], [], [], none⟩

instance : Inhabited Cluster := ⟨empty⟩

/-- The references of the objects, in order. -/
def references (c : Cluster) : List Reference :=
  (c.objects.map Prod.fst).mergeSort Reference.le

/-- Creates an object, or replaces the one of the same reference. -/
def apply (c : Cluster) (o : PermissionObject) : Except Fault Unit × Cluster :=
  match c.failure with
  | some reason => (.error (.clusterApi "apply" reason), c)
  | none =>
    (.ok (), { c with objects := c.objects.insert o.reference o, applied := c.applied ++ [o] })

/-- Deletes an object. One that is not there counts as deleted if that is to be ignored. -/
def delete (c : Cluster) (r : Reference) (ignoreMissing : Bool) : Except Fault Unit × Cluster :=
  match c.failure with
  | some reason => (.error (.clusterApi "delete" reason), c)
  | none =>
    let after := { c with objects := c.objects.erase r, deleted := c.deleted ++ [r] }
    if (c.objects.get? r).isNone && !ignoreMissing then
      (.error (.clusterApi "delete" (r.kind ++ " " ++ r.name ++ " not found")), after)
    else (.ok (), after)

end Cluster

end Chartkeeper
