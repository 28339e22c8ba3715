import Chartkeeper.Control.Client
import Chartkeeper.Control.Permissions
import Chartkeeper.Composition.Marks
import Chartkeeper.Manifest.Decode
import Chartkeeper.Release.Values
/-!
# The controller

The four operations on a composition. Each can be run again after it failed at any point: what
it did before is found there and taken up. A composition whose pause is in effect is left alone
by all of them.
-/

namespace Chartkeeper

/-- What a controller is set up with. -/
structure Controller where
  /-- How many revisions of a release are kept. -/
  historyLimit : Nat
  /-- The namespace of the platform. -/
  platform : String
  /-- Whom the permissions of a composition are given to. -/
  account : ServiceAccount
  deriving DecidableEq, Repr, Inhabited

namespace Controller

/-! ## Events -/

/-- The reason of events about a pause. -/
def pausedReason : String := "ReconciliationGracefullyPaused"

/-- Tells that a composition is left alone. -/
def announcePaused (record : Composition) (operation : String) : Task Unit :=
  Task.announce record
    ⟨.normal, pausedReason, operation,
      "Reconciliation is paused via the gracefully paused annotation."⟩

/-! ## Steps -/

/-- The key under which the release of a composition is found. -/
def releaseKey (record : Composition) (name : String) : ReleaseKey :=
  ⟨record.namespaceName, name⟩

/-- Stores the metadata and the spec of a record. -/
def saveRecord (record : Composition) : Task Composition :=
  (Task.updateRecord record).during "updating record"

def saveStatus (record : Composition) : Task Composition :=
  (Task.updateStatus record).during "updating status"

def findPackage (record : Composition) : Task Package :=
  (Task.resolve record).during "getting package info"

def findRelease (record : Composition) (name : String) : Task (Option Release) :=
  (Task.getRelease (releaseKey record name)).during "finding helm release"

/-- Finds the resource that serves the kind of a record. -/
def findResource (record : Composition) : Task ApiResource :=
  (Task.serve record.apiKind).during "converting GVK to GVR"

/-- The owner of a record's permissions. -/
def owner (record : Composition) (resource : ApiResource) (package : Package) : Owner :=
  ⟨record.name, record.namespaceName, resource, package.definition⟩

/-- Makes and applies the permissions of a record. -/
def installPermissions (k : Controller) (record : Composition) (name : String)
    (resource : ApiResource) (package : Package) : Task Unit := do
  let bundle ← ((owner record resource package).generate k.account name).during
    "generating RBAC using chart-inspector"
  bundle.install.during "applying rbac"

/-- What the release of a record is rendered from. -/
def action (k : Controller) (record : Composition) (package : Package) (resource : ApiResource) :
    Except Fault Action := do
  let values ← Fault.during "getting spec values" (Values.ofSpec record)
  let (values, outcome) := values.inject record resource k.platform
  Fault.during "injecting global values" outcome
  return {
    chartName := package.repo
    chartVersion := package.version
    values := values.toJson
    credentials := package.auth
    skipTlsVerify := package.skipTlsVerify
    stamp := some (LabelStamp.of record resource k.platform) }

/-- The managed resources that a release put into the cluster, and the digest of its manifest. -/
def describe (release : Release) : Task (List ManagedResource × String) := do
  let (outlines, digest) ← Fault.during "decoding release"
    ((Manifest.decode .outline release.manifest).mapError Fault.digest)
  let managed ← (Task.manage outlines).during "populating managed resources"
  return (managed, digest)

/-- Applies a status write to a record, and says whether the status changed. -/
def writeStatus (record : Composition) (w : StatusWrite) : Task (Composition × Bool) := do
  let (status, changed) := record.status.apply w (← Task.now)
  return ({ record with status }, changed)

/-- Ends with a fault after noting it in the status and in an event. If that cannot be stored,
the fault of storing it takes its place. -/
def failNoted {α : Type} (record : Composition) (operation : String) (fault : Fault) : Task α := do
  let condition := Condition.unavailable fault.message (← Task.now)
  let record := { record with status := (record.status.setCondition condition).1 }
  Task.announce record ⟨.warning, "CompositionNotReady", operation, fault.message⟩
  match ← (Task.updateStatus record).outcome with
  | .ok _ => .fail fault
  | .error storing => .fail (.context "updating status after failure" storing)

/-- Goes on with what a program gives, or ends with its fault after noting it. -/
def noted {α : Type} (record : Composition) (operation : String) (p : Task α) : Task α := do
  match ← p.outcome with
  | .ok a => return a
  | .error fault => failNoted record operation fault

/-! ## Observing -/

/-- Whether an upgrade changed what is installed, or a pause has to take effect. The manifest
before is the one that the status describes, or that of the release before the upgrade when the
status describes none. -/
def observeUpgraded (record : Composition) (package : Package) (before after : Release) :
    Task Observation := do
  let digest := Digest.ofManifest after.manifest
  let previous :=
    if record.status.digest.isEmpty then Digest.ofManifest before.manifest
    else record.status.digest
  if digest ≠ previous || before.chartVersion ≠ after.chartVersion
      || record.pause = .requested then
    return .stale
  let w := ((StatusWrite.available "Composition is up-to-date").withDigests previous digest).withChart
    package.url package.version
  let (record, changed) ← writeStatus record w
  if changed then
    let _ ← saveStatus record
  return .current

/-- Finds out whether the release of a record is there and is what the record asks for, by
upgrading it: what the upgrade changes was out of date. A release that was left pending is
rolled back first. -/
def observe (k : Controller) (c : Composition) : Task Observation := do
  let name := c.releaseName
  let (record, named) := c.setReleaseName name
  if record.pause = .paused then
    announcePaused record "Observe"
    return .current
  -- the record is not paused, so a time that is noted belongs to a pause that is over
  let (record, resumed) := record.removePauseTime
  let record ← if named || resumed then saveRecord record else pure record
  let package ← findPackage record
  let (record, defined) := record.setDefinition package.definition
  let record ← if defined then saveRecord record else pure record
  match ← findRelease record name with
  | none => return .absent
  | some release =>
    let key := releaseKey record name
    let release ←
      if release.status.isStuck then
        (Task.rollback key k.historyLimit).during "rolling back release"
      else pure release
    let resource ← findResource record
    noted record "Observe" (k.installPermissions record name resource package)
    let action ← k.action record package resource
    let upgraded ← noted record "Observe"
      ((Task.upgrade key package.url action k.historyLimit).during "upgrading helm chart")
    observeUpgraded record package release upgraded

/-! ## Creating -/

/-- Upgrades the release that is there, or installs one. -/
def installOrUpgrade (k : Controller) (key : ReleaseKey) (package : Package) (action : Action)
    (existing : Option Release) : Task Release :=
  match existing with
  | some _ =>
    (Task.upgrade key package.url action k.historyLimit).during "upgrading helm chart"
  | none => (Task.install key package.url action).during "installing helm chart"

/-- Installs the release of a record and records what it put into the cluster. A release that an
earlier attempt left behind is upgraded instead. -/
def create (k : Controller) (c : Composition) : Task Unit := do
  if c.pause = .paused then
    announcePaused c "Create"
    return
  let name := c.releaseName
  let (record, named) := c.setReleaseName name
  let record ← if named then saveRecord record else pure record
  let package ← findPackage record
  let resource ← findResource record
  (k.installPermissions record name resource package).during "installing rbac"
  let action ← k.action record package resource
  -- a creation that stopped after its install has left a release behind
  let existing ← findRelease record name
  let release ← k.installOrUpgrade (releaseKey record name) package action existing
  let (managed, digest) ← describe release
  let w := ((((StatusWrite.available "Composition created").forced).withManaged managed).withDigests
    "" digest).withChart package.url package.version
  let (record, _) ← writeStatus record w
  Task.announce record
    ⟨.normal, "CompositionCreated", "Create", "Composition created: " ++ record.name⟩
  let record ← saveStatus record
  let _ ← saveRecord record.removePauseTime.1

/-! ## Updating -/

/-- Lets a pause take effect: notes the time, records the pause and tells of it. -/
def enterPause (record : Composition) (w : StatusWrite) : Task Composition := do
  let record := record.setPauseTime (← Task.now)
  let (record, changed) ← writeStatus record w.asPaused
  if changed then
    let _ ← saveStatus record
  Task.announce record
    ⟨.normal, pausedReason, "Update",
      "Reconciliation paused via the gracefully paused annotation."⟩
  return record

/-- Records what the release of a record put into the cluster, and lets a pause that was asked
for take effect. -/
def update (c : Composition) : Task Unit := do
  if c.pause = .paused then
    announcePaused c "Update"
    return
  let name := c.releaseName
  let package ← findPackage c
  match ← findRelease c name with
  | none => .fail (.releaseNotFound name)
  | some release =>
    let (managed, digest) ← describe release
    Task.announce c
      ⟨.normal, "CompositionUpdated", "Update", "Updated composition: " ++ c.name⟩
    let w := ((StatusWrite.available "Composition values updated").withDigests c.status.digest
      digest).withChart package.url package.version
    -- set here, because a status write keeps the resources before when there are none now
    let (record, _) ← writeStatus { c with status := { c.status with managed } } w
    let record ← saveStatus record
    let record ←
      if record.wantsPause then enterPause record w else pure record.removePauseTime.1
    let _ ← saveRecord record

/-! ## Deleting -/

/-- Tells that a composition is gone. -/
def announceDeleted (record : Composition) (message : String) : Task Unit :=
  Task.announce record ⟨.normal, "CompositionDeleted", "Delete", message ++ record.name⟩

/-- Uninstalls the release of a record and then removes its permissions. Without a release there
is nothing to do. -/
def delete (k : Controller) (c : Composition) : Task Unit := do
  if c.pause = .paused then
    announcePaused c "Delete"
    return
  let name := c.releaseName
  let package ← findPackage c
  if (← findRelease c name).isNone then
    announceDeleted c "Composition not found, nothing to uninstall: "
    return
  (Task.uninstall (releaseKey c name) true).during "uninstalling helm chart"
  -- the permissions stay while the release is still there
  if (← findRelease c name).isSome then
    .fail (.releaseStillExists name)
  else
    let resource ← findResource c
    let bundle ← ((owner c resource package).generate k.account name).during
      ("generating RBAC for composition " ++ c.key)
    bundle.uninstall.during "uninstalling rbac"
    announceDeleted c "Deleted composition: "
    let _ ← saveRecord c.removePauseTime.1

def client (k : Controller) : Client Port where
  observe := k.observe
  create := k.create
  update := update
  delete := k.delete

/-- One pass over a composition. -/
def reconcile (k : Controller) (c : Composition) : Task Outcome :=
  k.client.reconcile c

end Controller

end Chartkeeper
