import Chartkeeper.Control.Port
/-!
# Permissions of a composition

Making the bundle of a composition from what the inspector reports, and applying and removing a
bundle object by object. The first object that fails ends the work.
-/

namespace Chartkeeper

/-- Makes the bundle of an owner. Nothing is asked of the inspector when no bundle can be made. -/
def Owner.generate (o : Owner) (account : ServiceAccount) (base : String) : Task Bundle := do
  o.check account base
  let report ← Task.inspect o.inspection
  return o.bundle account base (.ofReport o.namespaceName report)

namespace Bundle

/-- Applies a bundle, roles first. -/
def install (b : Bundle) : Task Unit :=
  Program.each (fun o => (Task.apply o).during ("applying " ++ o.title)) b.applyOrder

/-- Removes a bundle, bindings first. Objects that are not there do not matter. -/
def uninstall (b : Bundle) : Task Unit :=
  Program.each (fun o => (Task.delete o.reference true).during ("deleting " ++ o.title))
    b.removeOrder

end Bundle

end Chartkeeper
