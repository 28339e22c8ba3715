import Chartkeeper.Composition.Event
import Chartkeeper.Composition.Store
import Chartkeeper.Control.Program
import Chartkeeper.Permission.Bundle
import Chartkeeper.Release.Backend
/-!
# What a controller calls

The calls of a controller to those it works with: the resolver of packages, the package
manager, the catalog of kinds, the inspector of charts, the cluster, the store of compositions,
the listeners to events, and the clock.
-/

namespace Chartkeeper

namespace Port

/-- A call of a controller. -/
inductive Call where
  | resolve (record : Composition)
  | getRelease (key : ReleaseKey)
  | install (key : ReleaseKey) (url : String) (action : Action)
  | upgrade (key : ReleaseKey) (url : String) (action : Action) (limit : Nat)
  | rollback (key : ReleaseKey) (limit : Nat)
  | uninstall (key : ReleaseKey) (ignoreMissing : Bool)
  | serve (kind : ApiKind)
  | manage (outlines : List Outline)
  | inspect (inspection : Inspection)
  | apply (o : PermissionObject)
  | delete (r : Reference) (ignoreMissing : Bool)
  | updateRecord (record : Composition)
  | updateStatus (record : Composition)
  | announce (record : Composition) (event : Event)
  | now

/-- What a call is answered with. -/
def Answer : Call → Type
  | .resolve _ => Package
  | .getRelease _ => Option Release
  | .install .. => Release
  | .upgrade .. => Release
  | .rollback .. => Release
  | .uninstall .. => Unit
  | .serve _ => ApiResource
  | .manage _ => List ManagedResource
  | .inspect _ => List Requirement
  | .apply _ => Unit
  | .delete .. => Unit
  | .updateRecord _ => Composition
  | .updateStatus _ => Composition
  | .announce .. => Unit
  | .now => Instant

end Port

/-- The interface of a controller. -/
def Port : Interface := ⟨Port.Call, Port.Answer⟩

/-- A program of a controller. -/
abbrev Task (α : Type) := Program Port α

namespace Task

/-- Resolves the package of a composition. -/
def resolve (record : Composition) : Task Package :=
  Program.ask (I := Port) (.resolve record)

def getRelease (key : ReleaseKey) : Task (Option Release) :=
  Program.ask (I := Port) (.getRelease key)

def install (key : ReleaseKey) (url : String) (action : Action) : Task Release :=
  Program.ask (I := Port) (.install key url action)

/-- Upgrades a release, keeping a number of revisions. -/
def upgrade (key : ReleaseKey) (url : String) (action : Action) (limit : Nat) : Task Release :=
  Program.ask (I := Port) (.upgrade key url action limit)

/-- Rolls a release back, keeping a number of revisions. -/
def rollback (key : ReleaseKey) (limit : Nat) : Task Release :=
  Program.ask (I := Port) (.rollback key limit)

def uninstall (key : ReleaseKey) (ignoreMissing : Bool) : Task Unit :=
  Program.ask (I := Port) (.uninstall key ignoreMissing)

/-- Finds the resource that serves a kind. -/
def serve (kind : ApiKind) : Task ApiResource :=
  Program.ask (I := Port) (.serve kind)

/-- Finds the managed resources of the objects of a manifest. -/
def manage (outlines : List Outline) : Task (List ManagedResource) :=
  Program.ask (I := Port) (.manage outlines)

/-- Asks what a chart needs. -/
def inspect (inspection : Inspection) : Task (List Requirement) :=
  Program.ask (I := Port) (.inspect inspection)

/-- Creates or replaces a permission object. -/
def apply (o : PermissionObject) : Task Unit :=
  Program.ask (I := Port) (.apply o)

def delete (r : Reference) (ignoreMissing : Bool) : Task Unit :=
  Program.ask (I := Port) (.delete r ignoreMissing)

/-- Stores the metadata and the spec of a composition. -/
def updateRecord (record : Composition) : Task Composition :=
  Program.ask (I := Port) (.updateRecord record)

/-- Stores the status of a composition. -/
def updateStatus (record : Composition) : Task Composition :=
  Program.ask (I := Port) (.updateStatus record)

/-- Tells of an event. Whether anyone listens does not matter. -/
def announce (record : Composition) (event : Event) : Task Unit := do
  let _ ← Program.outcome (Program.ask (I := Port) (.announce record event))

def now : Task Instant :=
  Program.ask (I := Port) .now

end Task

end Chartkeeper
