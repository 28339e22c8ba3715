import Chartkeeper.Composition.Basic
import Chartkeeper.Control.Program
/-!
# Reconciling

A client knows how to observe, create, update and delete what a composition stands for.
Reconciling one composition is one pass over these: a record that is marked for deletion is
deleted, and any other is observed first, and then created or updated if need be.
-/

namespace Chartkeeper

/-- What was found when a composition was observed. -/
structure Observation where
  found : Bool
  upToDate : Bool
  deriving DecidableEq, Repr, Inhabited

namespace Observation

/-- There is no release. -/
def absent : Observation := ⟨false, false⟩

/-- There is a release, and it is what the record asks for. -/
def current : Observation := ⟨true, true⟩

/-- There is a release, but the record has to be brought up to date. -/
def stale : Observation := ⟨true, false⟩

end Observation

/-- What a pass did. -/
inductive Outcome where
  | created
  | updated
  | upToDate
  | deleted
  deriving DecidableEq, Repr, Inhabited

def Outcome.text : Outcome → String
  | .created => "created"
  | .updated => "updated"
  | .upToDate => "up-to-date"
  | .deleted => "deleted"

/-- The four operations on compositions. -/
structure Client (I : Interface) where
  observe : Composition → Program I Observation
  create : Composition → Program I Unit
  update : Composition → Program I Unit
  delete : Composition → Program I Unit

/-- One pass over a composition. -/
def Client.reconcile {I : Interface} (client : Client I) (c : Composition) : Program I Outcome := do
  if c.isDeleting then
    client.delete c
    return .deleted
  let observation ← client.observe c
  if !observation.found then
    client.create c
    return .created
  else if !observation.upToDate then
    client.update c
    return .updated
  else return .upToDate

end Chartkeeper
