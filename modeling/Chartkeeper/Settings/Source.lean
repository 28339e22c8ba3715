import Chartkeeper.Folder
import Chartkeeper.Settings.Basic
import Chartkeeper.Toml.Item.Reader
import Chartkeeper.Toml.Text
/-!
# Where settings come from

Settings are built up in layers: what holds where nothing is said, then a TOML document, then
variables of the environment. They are written as TOML, too.
-/

namespace Chartkeeper

/-! ## Numbers in variables -/

/-- Why a text is no number. -/
inductive NumberFault where
  | empty
  | notADigit
  | tooLarge
  deriving DecidableEq, Repr

def NumberFault.message : NumberFault → String
  | .empty => "cannot parse integer from empty string"
  | .notADigit => "invalid digit found in string"
  | .tooLarge => "number too large to fit in target type"

/-- Takes digits from left to right, up to the first fault. -/
def numberOfDigits (bound : Nat) : (value : Nat) → List Char → Except NumberFault Nat
  | value, [] => .ok value
  | value, c :: rest =>
    if c.isDigit then
      let next := 10 * value + (c.toNat - '0'.toNat)
      if next < bound then numberOfDigits bound next rest else .error .tooLarge
    else .error .notADigit

/-- The number below a bound that a text stands for. White space around it and a plus before it
do not matter. -/
def numberOfText (bound : Nat) (s : String) : Except NumberFault Nat :=
  match Text.trimChars s.toList with
  | [] => .error .empty
  | ['+'] => .error .notADigit
  | '+' :: rest => numberOfDigits bound 0 rest
  | cs => numberOfDigits bound 0 cs

namespace Settings

/-! ## Documents -/

/-- The text of a key, if it is one. -/
def textIn (rows : Toml.Rows) (key missing : String) : Option String :=
  match Assoc.get? key rows with
  | none => some missing
  | some (.text s) => some s
  | some _ => none

/-- The number of a key, if it is one below a bound. -/
def numberIn (rows : Toml.Rows) (key : String) (bound missing : Nat) : Option Nat :=
  match Assoc.get? key rows with
  | none => some missing
  | some (.whole n) => if 0 ≤ n && n < bound then some n.toNat else none
  | some _ => none

/-- The settings in a document; what is missing is as usual, and other keys do not matter. -/
def ofRows? (rows : Toml.Rows) : Option Settings := do
  let historyLimit ← numberIn rows "helm_max_history" historyBound standard.historyLimit
  let platform ← textIn rows "krateo_namespace" standard.platform
  let accountName ← textIn rows "service_account_name" standard.accountName
  let accountNamespace ← textIn rows "service_account_namespace" standard.accountNamespace
  let timeout ← numberIn rows "reconcile_timeout_secs" timeoutBound standard.timeout
  return ⟨historyLimit, platform, accountName, accountNamespace, timeout⟩

/-- Reads settings from a TOML document. -/
def ofToml (s : String) : Except SettingsFault Settings :=
  match (Toml.rows? s).bind ofRows? with
  | some settings => .ok settings
  | none => .error (.toml "not a document of settings")

/-- The settings as a TOML document. -/
def toml (s : Settings) : String :=
  "helm_max_history = " ++ toString s.historyLimit ++ "\n"
    ++ "krateo_namespace = " ++ Toml.Written.text s.platform ++ "\n"
    ++ "service_account_name = " ++ Toml.Written.text s.accountName ++ "\n"
    ++ "service_account_namespace = " ++ Toml.Written.text s.accountNamespace ++ "\n"
    ++ "reconcile_timeout_secs = " ++ toString s.timeout ++ "\n"

/-! ## Variables -/

/-- Where the variables of the environment are looked up. -/
abbrev Variables := String → Option String

/-- Sets a number from a variable, if the variable is set. -/
def overrideNumber (key : String) (bound : Nat) (set : Nat → Settings → Settings)
    (env : Variables) (s : Settings) : Settings × Except SettingsFault Unit :=
  match env key with
  | none => (s, .ok ())
  | some value =>
    match numberOfText bound value with
    | .ok n => (set n s, .ok ())
    | .error fault => (s, .error (.variable key fault.message))

/-- Sets a text from a variable, if the variable is set. -/
def overrideText (key : String) (set : String → Settings → Settings) (env : Variables)
    (s : Settings) : Settings × Except SettingsFault Unit :=
  match env key with
  | none => (s, .ok ())
  | some value => (set value s, .ok ())

/-- What each variable does to the settings, in the order in which they count. -/
def overrides : List (Variables → Settings → Settings × Except SettingsFault Unit) :=
  [overrideNumber "HELM_MAX_HISTORY" historyBound fun n s => { s with historyLimit := n },
    overrideText "KRATEO_NAMESPACE" fun v s => { s with platform := v },
    overrideText "SERVICE_ACCOUNT_NAME" fun v s => { s with accountName := v },
    overrideText "SERVICE_ACCOUNT_NAMESPACE" fun v s => { s with accountNamespace := v },
    overrideNumber "RECONCILE_TIMEOUT_SECS" timeoutBound fun n s => { s with timeout := n }]

/-- Applies changes up to the first that fails. -/
def applyAll (env : Variables) :
    List (Variables → Settings → Settings × Except SettingsFault Unit) → Settings →
      Settings × Except SettingsFault Unit
  | [], s => (s, .ok ())
  | change :: rest, s =>
    match change env s with
    | (s, .ok ()) => applyAll env rest s
    | failed => failed

/-- Sets what the variables say. A variable that is refused leaves those before it in effect. -/
def override (env : Variables) (s : Settings) : Settings × Except SettingsFault Unit :=
  applyAll env overrides s

/-- The settings of a file, if one is given, and the environment, once they are found in
order. A file is given by its path and its content, or the reason why it has none. -/
def load (file : Option (String × Except ReadFault String)) (env : Variables) :
    Except SettingsFault Settings := do
  let s ← match file with
    | none => .ok standard
    | some (_, .ok content) => ofToml content
    | some (path, .error fault) => .error (.unreadable path fault.message)
  let (s, outcome) := s.override env
  outcome
  s.check
  return s

end Settings

end Chartkeeper
