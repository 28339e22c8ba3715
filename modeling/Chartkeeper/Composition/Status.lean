import Chartkeeper.Composition.Condition
import Chartkeeper.Resource.Managed
/-!
# Status

What the controller has recorded about a composition: the digests of the manifest it described
last and before, the chart it came from, the managed resources and the conditions. A status
write sets all of these at once and says whether anything changed.
-/

namespace Chartkeeper

/-- The recorded state of a composition. -/
structure Status where
  digest : String
  previousDigest : String
  chartUrl : String
  chartVersion : String
  managed : List ManagedResource
  conditions : List Condition
  deriving DecidableEq, Repr

namespace Status

def empty : Status := ⟨"", "", "", "", [], []⟩

instance : Inhabited Status := ⟨empty⟩

/-- The first condition of a type. -/
def condition? (s : Status) (type : String) : Option Condition :=
  s.conditions.find? fun c => c.type == type

/-- Writes a condition and says whether the status changed. -/
def setCondition (s : Status) (c : Condition) : Status × Bool :=
  let (conditions, changed) := c.write s.conditions
  ({ s with conditions }, changed)

/-- The written form; empty fields are left out. -/
def toJson (s : Status) : Json :=
  .ofRows (Json.textUnlessEmpty "digest" s.digest
    ++ Json.textUnlessEmpty "previousDigest" s.previousDigest
    ++ Json.textUnlessEmpty "helmChartUrl" s.chartUrl
    ++ Json.textUnlessEmpty "helmChartVersion" s.chartVersion
    ++ Json.listUnlessEmpty "managed" ManagedResource.toJson s.managed
    ++ Json.listUnlessEmpty "conditions" Condition.toJson s.conditions)

/-- Reads the written form; every field may be missing. -/
def ofJson? (v : Json) : Option Status := do
  let r ← Row.ofJson? 6 v
  let digest ← r.defaulted 0 "digest" Json.str? ""
  let previousDigest ← r.defaulted 1 "previousDigest" Json.str? ""
  let chartUrl ← r.defaulted 2 "helmChartUrl" Json.str? ""
  let chartVersion ← r.defaulted 3 "helmChartVersion" Json.str? ""
  let managed ← r.defaulted 4 "managed" (Json.list? ManagedResource.ofJson?) []
  let conditions ← r.defaulted 5 "conditions" (Json.list? Condition.ofJson?) []
  return ⟨digest, previousDigest, chartUrl, chartVersion, managed, conditions⟩

end Status

/-! ## Status writes -/

/-- Which readiness a status write records. -/
inductive Readiness where
  | available
  | paused
  deriving DecidableEq, Repr

/-- One write of the status. -/
structure StatusWrite where
  /-- Write the condition even if the present one has the same reason and message. -/
  force : Bool
  chartUrl : String
  chartVersion : String
  /-- Written only when not empty. -/
  managed : List ManagedResource
  previousDigest : String
  digest : String
  /-- Written only when the composition is ready; a pause has a message of its own. -/
  message : String
  readiness : Readiness
  deriving DecidableEq, Repr

namespace StatusWrite

/-- The message of every paused composition. -/
def pausedMessage : String := "Composition is gracefully paused."

def available (message : String) : StatusWrite :=
  ⟨false, "", "", [], "", "", message, .available⟩

/-- The same write, recording a pause instead. -/
def asPaused (w : StatusWrite) : StatusWrite :=
  { w with readiness := .paused, message := pausedMessage }

def paused : StatusWrite :=
  (available pausedMessage).asPaused

/-- The same write, with the condition in any case. -/
def forced (w : StatusWrite) : StatusWrite :=
  { w with force := true }

def withChart (w : StatusWrite) (url version : String) : StatusWrite :=
  { w with chartUrl := url, chartVersion := version }

def withDigests (w : StatusWrite) (previous current : String) : StatusWrite :=
  { w with previousDigest := previous, digest := current }

def withManaged (w : StatusWrite) (managed : List ManagedResource) : StatusWrite :=
  { w with managed }

/-- The condition that a write asks for. -/
def condition (w : StatusWrite) (now : Instant) : Condition :=
  match w.readiness with
  | .available => Condition.available w.message now
  | .paused => Condition.paused pausedMessage now

/-- Whether the present readiness already has the reason and the message asked for. -/
def isRecorded (c : Condition) (s : Status) : Bool :=
  match s.condition? Condition.readyType with
  | some old => old.reason == c.reason && old.message == c.message
  | none => false

end StatusWrite

/-- Applies a status write and says whether the status changed. Digests and chart are always
written, the managed resources only when there are any, and the condition unless it is
recorded already. -/
def Status.apply (s : Status) (w : StatusWrite) (now : Instant) : Status × Bool :=
  let managed := if w.managed.isEmpty then s.managed else w.managed
  let fields : Status :=
    { s with
      managed
      previousDigest := w.previousDigest
      digest := w.digest
      chartUrl := w.chartUrl
      chartVersion := w.chartVersion }
  let fieldsChanged :=
    managed != s.managed || w.previousDigest != s.previousDigest || w.digest != s.digest
      || w.chartUrl != s.chartUrl || w.chartVersion != s.chartVersion
  let c := w.condition now
  -- a recorded condition is not written again, so its time stays
  if w.force || !StatusWrite.isRecorded c s then
    let (written, changed) := fields.setCondition c
    (written, fieldsChanged || changed)
  else (fields, fieldsChanged)

end Chartkeeper
