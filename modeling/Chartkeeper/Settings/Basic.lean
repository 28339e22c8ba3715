import Chartkeeper.Decimal.Word
import Chartkeeper.Json.Row
import Chartkeeper.Text.Blank
/-!
# Settings

What the controller can be told by a file and by its environment, and what of it is refused.
-/

namespace Chartkeeper

/-- Why there are no settings. -/
inductive SettingsFault where
  | unreadable (path reason : String)
  | toml (reason : String)
  | variable (key reason : String)
  | invalid (reason : String)
  | io (reason : String)
  deriving DecidableEq, Repr

def SettingsFault.message : SettingsFault → String
  | .unreadable path reason => "failed to read file '" ++ path ++ "': " ++ reason
  | .toml reason => "TOML parse error: " ++ reason
  | .variable key reason => "invalid value for " ++ key ++ ": " ++ reason
  | .invalid reason => "invalid configuration: " ++ reason
  | .io reason => "I/O error: " ++ reason

/-- The settings of a controller. -/
structure Settings where
  /-- How many revisions of a release are kept. -/
  historyLimit : Nat
  /-- The namespace of the platform. -/
  platform : String
  accountName : String
  accountNamespace : String
  /-- How long one pass may take, in seconds. -/
  timeout : Nat
  deriving DecidableEq, Repr

namespace Settings

/-- What holds where nothing is said. -/
def standard : Settings :=
  ⟨3, "krateo-system", "composition-controller", "krateo-system", 300⟩

instance : Inhabited Settings := ⟨standard⟩

/-- History limits lie below this number. -/
def historyBound : Nat := Word.bound32

/-- Timeouts lie below this number. -/
def timeoutBound : Nat := Word.bound64

/-- Refuses settings with which a controller cannot work; of several faults the first in the
order of the settings counts. -/
def check (s : Settings) : Except SettingsFault Unit :=
  if s.historyLimit = 0 then .error (.invalid "helm_max_history must be greater than 0")
  else if Text.blank s.platform then .error (.invalid "krateo_namespace must not be empty")
  else if Text.blank s.accountName then
    .error (.invalid "service_account_name must not be empty")
  else if Text.blank s.accountNamespace then
    .error (.invalid "service_account_namespace must not be empty")
  else if s.timeout = 0 then .error (.invalid "reconcile_timeout_secs must be greater than 0")
  else .ok ()

/-- The columns of the written form, in order. -/
def rows (s : Settings) : List (String × Json) :=
  [("helm_max_history", .int s.historyLimit), ("krateo_namespace", .str s.platform),
    ("service_account_name", .str s.accountName),
    ("service_account_namespace", .str s.accountNamespace),
    ("reconcile_timeout_secs", .int s.timeout)]

def toJson (s : Settings) : Json :=
  .ofRows s.rows

/-- Reads the written form; what is missing is as usual. -/
def ofJson? (v : Json) : Option Settings := do
  let r ← Row.ofJson? 5 v
  let historyLimit ←
    r.defaulted 0 "helm_max_history" (Json.natBelow? historyBound) standard.historyLimit
  let platform ← r.defaulted 1 "krateo_namespace" Json.str? standard.platform
  let accountName ← r.defaulted 2 "service_account_name" Json.str? standard.accountName
  let accountNamespace ←
    r.defaulted 3 "service_account_namespace" Json.str? standard.accountNamespace
  let timeout ← r.defaulted 4 "reconcile_timeout_secs" (Json.natBelow? timeoutBound) standard.timeout
  return ⟨historyLimit, platform, accountName, accountNamespace, timeout⟩

/-- The first second that the clock cannot count to from when it is read. -/
def clockBound : Nat := Word.half64 - 1048576

/-- The deadline of a pass in milliseconds from its start; none when the clock does not reach
that far. -/
def deadline? (s : Settings) : Option Nat :=
  if s.timeout < clockBound then some (1000 * s.timeout) else none

end Settings

end Chartkeeper
