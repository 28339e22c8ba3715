import Chartkeeper.Json.Row
/-!
# Events

What the controller tells about a composition as it goes along.
-/

namespace Chartkeeper

/-- How much an event matters. -/
inductive Severity where
  | normal
  | warning
  deriving DecidableEq, Repr, Inhabited

namespace Severity

def text : Severity → String
  | .normal => "Normal"
  | .warning => "Warning"

def ofJson? : Json → Option Severity :=
  Json.choice? [("Normal", .normal), ("Warning", .warning)]

end Severity

/-- One thing that is told about a composition. -/
structure Event where
  severity : Severity
  reason : String
  action : String
  message : String
  deriving DecidableEq, Repr, Inhabited

namespace Event

def toJson (e : Event) : Json :=
  .ofRows [("severity", .str e.severity.text), ("reason", .str e.reason),
    ("action", .str e.action), ("message", .str e.message)]

def ofJson? (v : Json) : Option Event := do
  let r ← Row.ofJson? 4 v
  let severity ← r.required 0 "severity" Severity.ofJson?
  let reason ← r.required 1 "reason" Json.str?
  let action ← r.required 2 "action" Json.str?
  let message ← r.required 3 "message" Json.str?
  return ⟨severity, reason, action, message⟩

end Event

end Chartkeeper
