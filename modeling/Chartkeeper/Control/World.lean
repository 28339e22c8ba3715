import Chartkeeper.Control.Port
import Chartkeeper.Control.Run
import Chartkeeper.Permission.Cluster
/-!
# A world in memory

Everything that a controller works with, as one state: a resolver that gives every composition
the same package, a package manager, a catalog, an inspector with a fixed report, a cluster, a
store, the events told so far, and a clock. Only the calls that change a release wait.
-/

namespace Chartkeeper

/-- The state of all that a controller works with. -/
structure World where
  package : Package
  /-- Why the resolver fails, if it does. -/
  resolverFailure : Option String
  backend : Backend
  /-- How long each change of a release waits. -/
  latency : Nat
  mapper : Mapper
  report : List Requirement
  /-- Why the inspector fails, if it does. -/
  inspectorFailure : Option String
  cluster : Cluster
  store : Store
  events : List Event
  /-- What the clock shows at each reading. -/
  clock : Nat → Instant
  /-- How often the clock was read. -/
  readings : Nat

namespace World

/-- A world that holds nothing, with a clock. -/
def empty (clock : Nat → Instant) : World where
  package := ⟨"", "", "", none, false, .empty⟩
  resolverFailure := none
  backend := .empty
  latency := 0
  mapper := Catalog.mapper []
  report := []
  inspectorFailure := none
  cluster := .empty
  store := .empty
  events := []
  clock
  readings := 0

def modifyBackend (w : World) (f : Backend → Backend) : World :=
  { w with backend := f w.backend }

/-- A fixed answer, given unless there is a reason to fail. -/
def given {α : Type} (failure : Option String) (fault : String → Fault) (a : α) : Except Fault α :=
  match failure with
  | some reason => .error (fault reason)
  | none => .ok a

/-- Carries out an operation of the package manager. -/
def onBackend {α : Type} (w : World) (r : Except Fault α × Backend) : Except Fault α × World :=
  (r.1, { w with backend := r.2 })

/-- Carries out a change of the cluster. -/
def onCluster {α : Type} (w : World) (r : Except Fault α × Cluster) : Except Fault α × World :=
  (r.1, { w with cluster := r.2 })

/-- Carries out a write to the store. -/
def onStore {α : Type} (w : World) (r : Except Fault α × Store) : Except Fault α × World :=
  (r.1, { w with store := r.2 })

/-- How a call is answered, and the world after it. -/
def effect (w : World) : (c : Port.Call) → Except Fault (Port.Answer c) × World
  | .resolve _ => (given w.resolverFailure .resolver w.package, w)
  | .getRelease key => w.onBackend (w.backend.get key)
  | .install key url action => w.onBackend (w.backend.install key url action)
  | .upgrade key url action limit => w.onBackend (w.backend.upgrade key url action limit)
  | .rollback key limit => w.onBackend (w.backend.rollback key limit)
  | .uninstall key ignoreMissing => w.onBackend (w.backend.uninstall key ignoreMissing)
  | .serve kind => (w.mapper.resource kind, w)
  | .manage outlines => (ManagedResource.ofOutlines w.mapper outlines, w)
  | .inspect _ => (given w.inspectorFailure .inspector w.report, w)
  | .apply o => w.onCluster (w.cluster.apply o)
  | .delete r ignoreMissing => w.onCluster (w.cluster.delete r ignoreMissing)
  | .updateRecord record =>
    let (stored, store) := w.store.update record
    (.ok stored, { w with store })
  | .updateStatus record => w.onStore (w.store.updateStatus record)
  | .announce _ event => (.ok (), { w with events := w.events ++ [event] })
  | .now => (.ok (w.clock w.readings), { w with readings := w.readings + 1 })

/-- How long a call waits. -/
def wait (w : World) : Port.Call → Nat
  | .install .. | .upgrade .. | .rollback .. | .uninstall .. => w.latency
  | _ => 0

/-- The world as a machine. -/
def machine : Machine Port World := ⟨wait, effect⟩

/-- Runs a task in a world, with a deadline if there is one. -/
def run {α : Type} (w : World) (deadline : Option Nat) (p : Task α) : Run Port World α :=
  p.run machine deadline w 0

end World

end Chartkeeper
