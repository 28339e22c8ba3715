import Chartkeeper.Folder
import Chartkeeper.Manifest.Decode
import Chartkeeper.Resource.Managed
import Chartkeeper.Settings.Source
/-!
# The command line

Three commands for operators: print the settings, digest a manifest, and list the managed
resources of a manifest. A command is read from its arguments; which text it needs is known
before it is carried out, so carrying it out is a function of that text and the environment.
-/

namespace Chartkeeper

/-- What the command line asks for. -/
inductive Command where
  | help
  | version
  | config (file : Option String) (json : Bool)
  | digest (path : String) (fast : Bool)
  | objects (path : String) (json : Bool)
  deriving DecidableEq, Repr

namespace Command

/-! ## Arguments -/

/-- The options and the operands among the arguments of a command. -/
structure Arguments where
  help : Bool
  flags : List String
  /-- The values of options that take one. -/
  values : List (String × String)
  operands : List String
  deriving Inhabited

/-- Which arguments a command takes. -/
structure Shape where
  flags : List String
  /-- Options that take a value, each with its short letter. -/
  valued : List (String × Char)
  /-- How many operands there have to be. -/
  operands : Nat

/-- Notes an option that takes no value. It may be given once. -/
def Shape.addFlag (shape : Shape) (name : String) (a : Arguments) : Option Arguments :=
  if shape.flags.contains name && !a.flags.contains name then
    some { a with flags := name :: a.flags }
  else none

/-- Notes the value of an option. It may be given once, and must not be empty. -/
def addValue (name value : String) (a : Arguments) : Option Arguments :=
  if value.isEmpty || (a.values.lookup name).isSome then none
  else some { a with values := (name, value) :: a.values }

/-- Notes an operand, if there is room for one. It must not be empty. -/
def Shape.addOperand (shape : Shape) (value : String) (a : Arguments) : Option Arguments :=
  if value.isEmpty || shape.operands ≤ a.operands.length then none
  else some { a with operands := a.operands ++ [value] }

/-- Notes operands, in order. -/
def Shape.addOperands (shape : Shape) : List String → Arguments → Option Arguments
  | [], a => some a
  | value :: rest, a => do shape.addOperands rest (← shape.addOperand value a)

/-- Notes the value of an option that is the next argument; a value does not look like an
option. Gives the arguments after it. -/
def addNext (name : String) (rest : List String) (a : Arguments) :
    Option (List String × Arguments) :=
  match rest with
  | [] => none
  | value :: rest =>
    -- a single dash stands for the input
    if value ≠ "-" && value.startsWith "-" then none
    else (addValue name value a).map fun a => (rest, a)

/-- Drops the equals sign before the value of a short option. -/
def afterEquals : List Char → List Char
  | '=' :: value => value
  | value => value

/-- Reads one option and gives the arguments after it. -/
def Shape.readOption (shape : Shape) (option : List Char) (rest : List String) (a : Arguments) :
    Option (List String × Arguments) :=
  match option with
  | '-' :: '-' :: long =>
    match Text.cutAt '=' long with
    | none =>
      let name := String.ofList long
      if (shape.valued.lookup name).isSome then addNext name rest a
      else (shape.addFlag name a).map fun a => (rest, a)
    | some (name, value) =>
      if (shape.valued.lookup (String.ofList name)).isSome then
        (addValue (String.ofList name) (String.ofList value) a).map fun a => (rest, a)
      else none
  | '-' :: letter :: value =>
    match shape.valued.find? fun row => row.2 = letter with
    | none => none
    | some (name, _) =>
      if value.isEmpty then addNext name rest a
      else (addValue name (String.ofList (afterEquals value)) a).map fun a => (rest, a)
  | _ => none

/-- Reads the arguments of a command up to the first that does not fit. What comes after a
request for help does not matter, and after two dashes there are only operands. -/
def Shape.read (shape : Shape) : (fuel : Nat) → List String → Arguments → Option Arguments
  | 0, _, a => some a
  | _ + 1, [], a => some a
  | fuel + 1, word :: rest, a =>
    if word = "--" then shape.addOperands rest a
    else if word.startsWith "-h" || word = "--help" then some { a with help := true }
    else if word ≠ "-" && word.startsWith "-" then do
      let (rest, a) ← shape.readOption word.toList rest a
      shape.read fuel rest a
    else do shape.read fuel rest (← shape.addOperand word a)

/-- Reads the arguments of a command, all of which have to be there unless help is asked for. -/
def Shape.arguments? (shape : Shape) (words : List String) : Option Arguments := do
  let a ← shape.read (words.length + 1) words ⟨false, [], [], []⟩
  if a.help || a.operands.length = shape.operands then some a else none

def configShape : Shape := ⟨["json"], [("file", 'f')], 0⟩

def digestShape : Shape := ⟨["fast"], [], 1⟩

def objectsShape : Shape := ⟨["json"], [], 1⟩

/-- The names that help can be asked for. -/
def helpTopics : List String := ["config", "digest", "objects", "help"]

/-- Reads a command line. -/
def ofWords? : List String → Option Command
  | "config" :: words => do
    let a ← configShape.arguments? words
    return if a.help then .help else .config (a.values.lookup "file") (a.flags.contains "json")
  | "digest" :: words => do
    let a ← digestShape.arguments? words
    return if a.help then .help else .digest (a.operands.headD "") (a.flags.contains "fast")
  | "objects" :: words => do
    let a ← objectsShape.arguments? words
    return if a.help then .help else .objects (a.operands.headD "") (a.flags.contains "json")
  | ["help"] => some .help
  | ["help", topic] => if helpTopics.contains topic then some .help else none
  | word :: _ =>
    if word.startsWith "-V" || word = "--version" then some .version
    else if word.startsWith "-h" || word = "--help" then some .help
    else none
  | [] => none

/-! ## Carrying out -/

/-- Where a command gets a text from. -/
inductive Source where
  | file (path : String)
  | input
  deriving DecidableEq, Repr

/-- The text that a command needs. A manifest may come from the input; a file of settings is
always a file. -/
def source? : Command → Option Source
  | .help | .version | .config none _ => none
  | .config (some path) _ => some (.file path)
  | .digest path _ | .objects path _ => some (if path = "-" then .input else .file path)

/-- What a command leaves behind: what it prints, or why it failed with the causes of that, the
outermost first. -/
inductive Report where
  | printed (output : String)
  | failed (reason : String) (causes : List String)
  deriving DecidableEq, Repr

/-- A cause under a failure. Its lines are indented, and several causes are numbered. -/
def causeText (number : Option Nat) (cause : String) : String :=
  let (first, more) := match number with
    | none => ("    ", "    ")
    | some n =>
      let digits := toString n
      (String.ofList (List.replicate (5 - digits.length) ' ') ++ digits ++ ": ", "       ")
  "\n" ++ first
    ++ String.intercalate ("\n" ++ more)
      ((Text.pieces '\n' cause.toList).map fun line => String.ofList line)

/-- What is told of a failure. -/
def failureText (reason : String) (causes : List String) : String :=
  let body := match causes with
    | [] => ""
    | [cause] => "\n\nCaused by:" ++ causeText none cause
    | several =>
      "\n\nCaused by:"
        ++ String.join (several.zipIdx.map fun (cause, n) => causeText (some n) cause)
  "Error: " ++ reason ++ body ++ "\n"

/-- The text of a manifest that was asked for by its path. -/
def manifestText (path : String) (content : Except ReadFault String) : Except Report String :=
  match content with
  | .ok text => .ok text
  | .error fault =>
    let what := if path = "-" then "Failed to read manifest from stdin"
      else "Failed to read manifest " ++ path
    .error (.failed what [fault.message])

/-- The outlines of a manifest and its digest. -/
def decoded (manifest : String) : Except Report (List Outline × String) :=
  (Manifest.decode .outline manifest).mapError fun fault =>
    .failed "Failed to decode manifest" [fault.message]

def printSettings (file : Option (String × Except ReadFault String)) (json : Bool)
    (env : Settings.Variables) : Report :=
  match Settings.load file env with
  | .error fault => .failed "Failed to load configuration" [fault.message]
  | .ok s => .printed ((if json then (Json.obj s.rows).pretty else s.toml) ++ "\n")

def printDigest (fast : Bool) (manifest : String) : Except Report String := do
  let digest ← if fast then .ok (Digest.ofManifest manifest) else (decoded manifest).map Prod.snd
  return digest ++ "\n"

def printObjects (json : Bool) (manifest : String) : Except Report String := do
  let (outlines, _) ← decoded manifest
  let managed ← (ManagedResource.ofOutlines Catalog.standard.mapper outlines).mapError fun fault =>
    .failed "Failed to resolve managed resources" fault.chain
  return if json then (Json.arr (managed.map fun m => .obj m.rows)).pretty ++ "\n"
    else String.join (managed.map fun m => m.path ++ "\n")

/-- A report of what was printed, or of why nothing was. -/
def report : Except Report String → Report
  | .ok output => .printed output
  | .error failed => failed

def usage : String :=
  "Usage: composition-controller <COMMAND>\n\nCommands:\n"
    ++ "  config   Print the resolved controller configuration\n"
    ++ "  digest   Compute the digest of a rendered manifest\n"
    ++ "  objects  List the managed resources a rendered manifest would produce\n"

/-- Carries out a command, with the text it needs or the reason why there is none. -/
def run (c : Command) (content : Except ReadFault String) (env : Settings.Variables) : Report :=
  match c with
  | .help => .printed usage
  | .version => .printed "composition-controller 0.1.0\n"
  | .config file json => printSettings (file.map fun path => (path, content)) json env
  | .digest path fast => report (manifestText path content >>= printDigest fast)
  | .objects path json => report (manifestText path content >>= printObjects json)

end Command

end Chartkeeper
