/-!
# Faults

What can go wrong while a composition is reconciled. A fault is a root cause under any number
of layers that say which step failed. Its message puts the layers before the cause, outermost
first; only some causes may pass by themselves.
-/

namespace Chartkeeper

/-- Why a manifest or a value has no digest. -/
inductive DigestFault where
  | decode (reason : String)
  | serialization (reason : String)
  deriving DecidableEq, Repr

def DigestFault.message : DigestFault → String
  | .decode reason => "decoding manifest: " ++ reason
  | .serialization reason => "serializing value for hashing: " ++ reason

/-- A root cause, or a fault with the step that failed. -/
inductive Fault where
  | backend (operation reason : String)
  | persistence (operation reason : String)
  | resolver (reason : String)
  | inspector (reason : String)
  | clusterApi (operation reason : String)
  | mapping (kind reason : String)
  | permission (reason : String)
  | digest (fault : DigestFault)
  | postRender (reason : String)
  | releaseNotFound (name : String)
  | releaseStillExists (name : String)
  | invalidRecord (reason : String)
  | invalidConfig (reason : String)
  | deadlineExceeded (elapsedMs : Nat)
  | context (step : String) (source : Fault)
  deriving DecidableEq, Repr

namespace Fault

def message : Fault → String
  | .backend operation reason => "package manager " ++ operation ++ " failed: " ++ reason
  | .persistence operation reason => "persisting record (" ++ operation ++ ") failed: " ++ reason
  | .resolver reason => "resolving package: " ++ reason
  | .inspector reason => "chart inspector: " ++ reason
  | .clusterApi operation reason => "cluster api " ++ operation ++ " failed: " ++ reason
  | .mapping kind reason => "mapping " ++ kind ++ ": " ++ reason
  | .permission reason => "generating permissions: " ++ reason
  | .digest fault => fault.message
  | .postRender reason => "post-rendering manifest: " ++ reason
  | .releaseNotFound name => "release '" ++ name ++ "' not found"
  | .releaseStillExists name => "composition not deleted, release " ++ name ++ " still exists"
  | .invalidRecord reason => "invalid record: " ++ reason
  | .invalidConfig reason => "invalid configuration: " ++ reason
  | .deadlineExceeded elapsedMs => "deadline exceeded after " ++ toString elapsedMs ++ "ms"
  | .context step source => step ++ ": " ++ source.message

/-- The root cause, without the layers. -/
def root : Fault → Fault
  | .context _ source => source.root
  | fault => fault

/-- The messages from the whole fault down to its root. -/
def chain : Fault → List String
  | .context step source => (step ++ ": " ++ source.message) :: source.chain
  | fault => [fault.message]

/-- Whether trying again may help: the cause lies in a collaborator or in the time given. -/
def isTransient (fault : Fault) : Bool :=
  match fault.root with
  | .backend .. | .persistence .. | .resolver _ | .inspector _ | .clusterApi .. | .mapping ..
  | .deadlineExceeded _ => true
  | _ => false

/-- Says during which step a result failed. -/
def during {α : Type} (step : String) : Except Fault α → Except Fault α
  | .ok a => .ok a
  | .error fault => .error (.context step fault)

end Fault

end Chartkeeper
