import Chartkeeper.Release.Action
import Chartkeeper.Release.Basic
import Chartkeeper.Release.Template
import Chartkeeper.Text.Assoc
/-!
# A package manager in memory

Charts by address, and for each name in a namespace the history of its releases, oldest first;
the newest release is the current one. Each operation notes that it was called, and fails while
a reason to fail is set for it. A failed operation leaves all histories as they were; one that
succeeds changes only the history of its own release.
-/

namespace Chartkeeper

/-- The operations of a package manager. -/
inductive Operation where
  | get
  | install
  | upgrade
  | rollback
  | uninstall
  deriving DecidableEq, Repr

namespace Operation

def text : Operation → String
  | .get => "get"
  | .install => "install"
  | .upgrade => "upgrade"
  | .rollback => "rollback"
  | .uninstall => "uninstall"

def all : List Operation := [.get, .install, .upgrade, .rollback, .uninstall]

end Operation

/-- A chart with its template. -/
structure Chart where
  name : String
  version : String
  template : String
  deriving DecidableEq, Repr, Inhabited

/-- A package manager. -/
structure Backend where
  charts : Assoc String Chart
  histories : Assoc ReleaseKey (List Release)
  calls : List Operation
  failures : Assoc Operation String
  /-- Whether an uninstall leaves the release where it is. -/
  retains : Bool
  deriving DecidableEq, Repr

namespace Backend

def empty : Backend := ⟨[], [], [], [], false⟩

instance : Inhabited Backend := ⟨empty⟩

/-! ## Preparation -/

/-- Makes a chart known under an address. -/
def register (b : Backend) (url : String) (chart : Chart) : Backend :=
  { b with charts := b.charts.insert url chart }

/-- The history of a release, oldest first; empty when there is none. -/
def history (b : Backend) (key : ReleaseKey) : List Release :=
  (b.histories.get? key).getD []

/-- The current release. -/
def current? (b : Backend) (key : ReleaseKey) : Option Release :=
  (b.history key).getLast?

def setHistory (b : Backend) (key : ReleaseKey) (releases : List Release) : Backend :=
  { b with histories := b.histories.insert key releases }

/-- Puts a release in place after those of its name, as it is. -/
def seed (b : Backend) (r : Release) : Backend :=
  b.setHistory r.key (b.history r.key ++ [r])

/-- Lets an operation fail from now on. -/
def failOn (b : Backend) (op : Operation) (reason : String) : Backend :=
  { b with failures := b.failures.insert op reason }

/-- Lets every operation succeed again. -/
def clearFailures (b : Backend) : Backend :=
  { b with failures := [] }

/-- How often an operation was called. -/
def count (b : Backend) (op : Operation) : Nat :=
  b.calls.count op

/-! ## Operations -/

/-- Notes the call of an operation, and whether it is to fail. -/
def check (b : Backend) (op : Operation) : Except Fault Unit × Backend :=
  let b' := { b with calls := b.calls ++ [op] }
  match b.failures.get? op with
  | some reason => (.error (.backend op.text reason), b')
  | none => (.ok (), b')

/-- The release that a chart renders to, at its first revision. -/
def render (b : Backend) (key : ReleaseKey) (url : String) (action : Action) :
    Except Fault Release :=
  match b.charts.get? url with
  | none => .error (.backend "render" ("chart " ++ url ++ " not found"))
  | some chart => do
    let version := if action.chartVersion.isEmpty then chart.version else action.chartVersion
    let text := Template.renderText chart.template action.values key.name key.namespaceName
    let manifest ← match action.stamp with
      | some stamp => stamp.render text
      | none => .ok text
    return .deployed key chart.name version manifest

/-- Keeps only the newest releases of a history; a limit of zero keeps all. -/
def trim (limit : Nat) (releases : List Release) : List Release :=
  if limit = 0 then releases else releases.drop (releases.length - limit)

/-- The history after a release took over from those before it. -/
def takeOver (limit : Nat) (releases : List Release) (next : Release) : List Release :=
  trim limit (releases.map (fun r => { r with status := .superseded }) ++ [next])

/-- The current release, if there is one. -/
def get (b : Backend) (key : ReleaseKey) : Except Fault (Option Release) × Backend :=
  match b.check .get with
  | (.error fault, b) => (.error fault, b)
  | (.ok (), b) => (.ok (b.current? key), b)

/-- Installs a chart under a name that is not in use. -/
def install (b : Backend) (key : ReleaseKey) (url : String) (action : Action) :
    Except Fault Release × Backend :=
  -- a chart that cannot be rendered counts as no call
  match b.render key url action with
  | .error fault => (.error fault, b)
  | .ok release =>
    match b.check .install with
    | (.error fault, b) => (.error fault, b)
    | (.ok (), b) =>
      if (b.current? key).isSome then
        (.error (.backend "install" ("cannot re-use a name that is still in use: " ++ key.name)), b)
      else (.ok release, b.setHistory key [release])

/-- Puts a newly rendered release after the current one. -/
def upgrade (b : Backend) (key : ReleaseKey) (url : String) (action : Action) (limit : Nat) :
    Except Fault Release × Backend :=
  match b.render key url action with
  | .error fault => (.error fault, b)
  | .ok rendered =>
    match b.check .upgrade with
    | (.error fault, b) => (.error fault, b)
    | (.ok (), b) =>
      match b.current? key with
      | none => (.error (.backend "upgrade" (key.name ++ " has no deployed releases")), b)
      | some current =>
        let release := { rendered with revision := Release.nextRevision current.revision }
        (.ok release, b.setHistory key (takeOver limit (b.history key) release))

/-- The release that a rollback goes back to: the one before the current one, or the current one
when there is none before it. -/
def rollbackTarget? (releases : List Release) : Option Release :=
  match releases.reverse with
  | _ :: earlier :: _ => some earlier
  | [only] => some only
  | [] => none

/-- Puts a copy of the release before the current one after it. -/
def rollback (b : Backend) (key : ReleaseKey) (limit : Nat) : Except Fault Release × Backend :=
  match b.check .rollback with
  | (.error fault, b) => (.error fault, b)
  | (.ok (), b) =>
    match b.current? key, rollbackTarget? (b.history key) with
    | some current, some target =>
      let release := { target with
        revision := Release.nextRevision current.revision
        status := .deployed }
      (.ok release, b.setHistory key (takeOver limit (b.history key) release))
    | _, _ => (.error (.backend "rollback" ("release " ++ key.name ++ " not found")), b)

/-- Removes a release with its history. One that is not there counts as removed if that is to be
ignored. -/
def uninstall (b : Backend) (key : ReleaseKey) (ignoreMissing : Bool) :
    Except Fault Unit × Backend :=
  match b.check .uninstall with
  | (.error fault, b) => (.error fault, b)
  | (.ok (), b) =>
    if b.retains then (.ok (), b)
    else if (b.histories.get? key).isNone && !ignoreMissing then
      (.error (.backend "uninstall" ("release " ++ key.name ++ " not found")), b)
    else (.ok (), { b with histories := b.histories.erase key })

end Backend

end Chartkeeper
