import Chartkeeper.Control.Controller
import Chartkeeper.Settings.Basic
/-!
# Assembling a controller

A controller is put together from its settings and from those it works with. It is complete when
none of them is missing; the first that is missing is named.
-/

namespace Chartkeeper

/-- Those that a controller works with. -/
inductive Part where
  | resolver
  | backend
  | store
  | mapper
  | events
  | permissions
  deriving DecidableEq, Repr

namespace Part

/-- Every part, in the order in which they are asked for. -/
def all : List Part := [.resolver, .backend, .store, .mapper, .events, .permissions]

/-- How messages name a part. -/
def title : Part → String
  | .resolver => "package resolver"
  | .backend => "release backend"
  | .store => "record store"
  | .mapper => "resource mapper"
  | .events => "event recorder"
  | .permissions => "permission generator"

end Part

/-- The controller that some settings describe. -/
def Controller.ofSettings (s : Settings) : Controller :=
  ⟨s.historyLimit, s.platform, ⟨s.accountName, s.accountNamespace⟩⟩

/-- A controller that is being put together. -/
structure Assembly where
  parts : List Part
  controller : Controller
  deriving DecidableEq, Repr

namespace Assembly

def start : Assembly := ⟨[], .ofSettings .standard⟩

def add (a : Assembly) (part : Part) : Assembly :=
  { a with parts := part :: a.parts }

/-- Sets what the settings say of history and platform. -/
def configure (a : Assembly) (s : Settings) : Assembly :=
  { a with controller := { a.controller with historyLimit := s.historyLimit, platform := s.platform } }

/-- Sets all that the settings say, and adds the permissions of their account. -/
def configureAll (a : Assembly) (s : Settings) : Assembly :=
  { a with controller := .ofSettings s }.add .permissions

/-- The controller, if nothing is missing. -/
def build (a : Assembly) : Except Fault Controller :=
  match Part.all.find? fun part => !a.parts.contains part with
  | some part => .error (.invalidConfig (part.title ++ " is required"))
  | none => .ok a.controller

end Assembly

end Chartkeeper
