import Chartkeeper.Decimal.Word
import Chartkeeper.Json.Row
/-!
# Releases

A release is one revision of a chart installed under a name in a namespace, with the manifest
that was rendered for it.
-/

namespace Chartkeeper

/-- Where a release stands. -/
inductive ReleaseStatus where
  | unknown
  | deployed
  | uninstalled
  | superseded
  | failed
  | uninstalling
  | pendingInstall
  | pendingUpgrade
  | pendingRollback
  deriving DecidableEq, Repr, Inhabited

namespace ReleaseStatus

/-- Whether an install or an upgrade was cut short. -/
def isStuck : ReleaseStatus → Bool
  | .pendingInstall | .pendingUpgrade => true
  | _ => false

def text : ReleaseStatus → String
  | .unknown => "unknown"
  | .deployed => "deployed"
  | .uninstalled => "uninstalled"
  | .superseded => "superseded"
  | .failed => "failed"
  | .uninstalling => "uninstalling"
  | .pendingInstall => "pending-install"
  | .pendingUpgrade => "pending-upgrade"
  | .pendingRollback => "pending-rollback"

def all : List ReleaseStatus :=
  [.unknown, .deployed, .uninstalled, .superseded, .failed, .uninstalling, .pendingInstall,
    .pendingUpgrade, .pendingRollback]

def ofJson? : Json → Option ReleaseStatus :=
  Json.choice? (all.map fun s => (s.text, s))

end ReleaseStatus

/-- What a release is found by. -/
structure ReleaseKey where
  namespaceName : String
  name : String
  deriving DecidableEq, Repr, Inhabited

/-- One revision of an installed chart. -/
structure Release where
  name : String
  namespaceName : String
  revision : Nat
  status : ReleaseStatus
  chartName : String
  chartVersion : String
  manifest : String
  deriving DecidableEq, Repr

namespace Release

/-- A release of which nothing is known. -/
def blank : Release := ⟨"", "", 0, .unknown, "", "", ""⟩

instance : Inhabited Release := ⟨blank⟩

/-- The largest number of a revision. -/
def lastRevision : Nat := Word.bound32 - 1

/-- The revision after one. The largest stays. -/
def nextRevision (revision : Nat) : Nat :=
  min (revision + 1) lastRevision

/-- A release that is deployed at its first revision. -/
def deployed (key : ReleaseKey) (chartName chartVersion manifest : String) : Release :=
  ⟨key.name, key.namespaceName, 1, .deployed, chartName, chartVersion, manifest⟩

def key (r : Release) : ReleaseKey := ⟨r.namespaceName, r.name⟩

def toJson (r : Release) : Json :=
  .ofRows [("name", .str r.name), ("namespace", .str r.namespaceName),
    ("revision", .int r.revision), ("status", .str r.status.text),
    ("chartName", .str r.chartName), ("chartVersion", .str r.chartVersion),
    ("manifest", .str r.manifest)]

/-- Reads the written form; chart and manifest may be missing. -/
def ofJson? (v : Json) : Option Release := do
  let r ← Row.ofJson? 7 v
  let name ← r.required 0 "name" Json.str?
  let namespaceName ← r.required 1 "namespace" Json.str?
  let revision ← r.required 2 "revision" (Json.natBelow? Word.bound32)
  let status ← r.required 3 "status" ReleaseStatus.ofJson?
  let chartName ← r.defaulted 4 "chartName" Json.str? ""
  let chartVersion ← r.defaulted 5 "chartVersion" Json.str? ""
  let manifest ← r.defaulted 6 "manifest" Json.str? ""
  return ⟨name, namespaceName, revision, status, chartName, chartVersion, manifest⟩

end Release

end Chartkeeper
