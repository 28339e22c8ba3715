import Chartkeeper.Json.Row
/-!
# Conditions

What is currently said about one aspect of a composition: a verdict, a reason and a message,
and since when the verdict holds. Two conditions are equivalent when they say the same,
whenever they said it.
-/

namespace Chartkeeper

/-- Whether an aspect holds. -/
inductive Verdict where
  | yes
  | no
  | unknown
  deriving DecidableEq, Repr, Inhabited

def Verdict.text : Verdict → String
  | .yes => "True"
  | .no => "False"
  | .unknown => "Unknown"

def Verdict.ofJson? : Json → Option Verdict :=
  Json.choice? [("True", .yes), ("False", .no), ("Unknown", .unknown)]

/-- One thing that is said about a composition. -/
structure Condition where
  type : String
  verdict : Verdict
  reason : String
  message : String
  since : Instant
  deriving DecidableEq, Repr, Inhabited

namespace Condition

/-- The type of the condition that says whether a composition is ready. -/
def readyType : String := "Ready"

def availableReason : String := "Available"

def unavailableReason : String := "Unavailable"

def pausedReason : String := "ReconcileGracefullyPaused"

def available (message : String) (now : Instant) : Condition :=
  ⟨readyType, .yes, availableReason, message, now⟩

def unavailable (message : String) (now : Instant) : Condition :=
  ⟨readyType, .no, unavailableReason, message, now⟩

def paused (message : String) (now : Instant) : Condition :=
  ⟨readyType, .no, pausedReason, message, now⟩

/-- Whether two conditions say the same, apart from the time. -/
def equivalent (a b : Condition) : Bool :=
  a.type == b.type && a.verdict == b.verdict && a.reason == b.reason && a.message == b.message

/-- Writes a condition into a list: one of the same type is replaced unless it says the same
already, and keeps its time when the verdict stays. Says whether the list changed. -/
def write (c : Condition) : List Condition → List Condition × Bool
  | [] => ([c], true)
  | old :: rest =>
    if old.type = c.type then
      if old.equivalent c then (old :: rest, false)
      else
        -- a new reason or message is no transition
        let since := if old.verdict = c.verdict then old.since else c.since
        ({ c with since } :: rest, true)
    else
      let (rest, changed) := write c rest
      (old :: rest, changed)

/-- The written form; an empty message is left out. -/
def toJson (c : Condition) : Json :=
  .ofRows ([("type", .str c.type), ("status", .str c.verdict.text), ("reason", .str c.reason)]
    ++ Json.textUnlessEmpty "message" c.message
    ++ [("lastTransitionTime", .str c.since.text)])

/-- Reads the written form; the message may be missing. -/
def ofJson? (v : Json) : Option Condition := do
  let r ← Row.ofJson? 5 v
  let type ← r.required 0 "type" Json.str?
  let verdict ← r.required 1 "status" Verdict.ofJson?
  let reason ← r.required 2 "reason" Json.str?
  let message ← r.defaulted 3 "message" Json.str? ""
  let since ← r.required 4 "lastTransitionTime" Json.instant?
  return ⟨type, verdict, reason, message, since⟩

end Condition

end Chartkeeper
