import Chartkeeper.Composition.Basic
import Chartkeeper.Release.Package
/-!
# Labels and annotations of a composition

The release name is derived once and then kept in a label, the owning definition is stamped
into five labels, and two annotations carry the pause protocol: the user asks for a pause with
one, and the controller notes in the other when it took effect.
-/

namespace Chartkeeper

/-- The label that keeps the release name. -/
def releaseNameLabel : String := "krateo.io/release-name"

/-- The annotation with which a user asks for a pause. -/
def pauseAnnotation : String := "krateo.io/gracefully-paused"

/-- The annotation that notes when a pause took effect. -/
def pauseTimeAnnotation : String := "krateo.io/gracefully-paused-time"

namespace Composition

/-- Sets a label and says whether it changed. -/
def setLabel (c : Composition) (key value : String) : Composition × Bool :=
  if c.metadata.labels.get? key = some value then (c, false) else (c.withLabel key value, true)

/-! ## The release name -/

/-- The release name that has been kept, if any. -/
def releaseName? (c : Composition) : Option String :=
  match c.metadata.labels.get? releaseNameLabel with
  | some name => if name.isEmpty then none else some name
  | none => none

/-- Keeps a release name and says whether it changed. -/
def setReleaseName (c : Composition) (name : String) : Composition × Bool :=
  c.setLabel releaseNameLabel name

/-- The longest release name that the package manager takes. -/
def longestReleaseName : Nat := 53

/-- How much of the unique identifier goes into a release name. -/
def uidPrefixLength : Nat := 8

/-- Drops the dashes at the end. -/
def trimDashes (cs : List Char) : List Char :=
  (cs.reverse.dropWhile (· = '-')).reverse

/-- The release name of a record's name and identifier: joined by a dash, cut to length, and
without dashes at the end. -/
def deriveReleaseName (name uid : List Char) : List Char :=
  let start := uid.take uidPrefixLength
  let full := if start.isEmpty then name else name ++ '-' :: start
  trimDashes (full.take longestReleaseName)

/-- The release name: the one that has been kept, or else the derived one. -/
def releaseName (c : Composition) : String :=
  match c.releaseName? with
  | some name => name
  | none => String.ofList (deriveReleaseName c.name.toList c.uid.toList)

/-! ## The owning definition -/

/-- The labels that name the owning definition, with their values. -/
def definitionLabels (d : Definition) : List (String × String) :=
  [("krateo.io/composition-definition-name", d.name),
    ("krateo.io/composition-definition-namespace", d.namespaceName),
    ("krateo.io/composition-definition-group", d.resource.group),
    ("krateo.io/composition-definition-version", d.resource.version),
    ("krateo.io/composition-definition-resource", d.resource.resource)]

/-- Sets labels in order and says whether any changed. -/
def setLabels (c : Composition) : List (String × String) → Composition × Bool
  | [] => (c, false)
  | (key, value) :: rest =>
    let (c, changed) := c.setLabel key value
    let (c, others) := c.setLabels rest
    (c, changed || others)

/-- Stamps the owning definition and says whether any label changed. -/
def setDefinition (c : Composition) (d : Definition) : Composition × Bool :=
  c.setLabels (definitionLabels d)

/-! ## The pause protocol -/

/-- Where a record stands in the pause protocol. -/
inductive Pause where
  | active
  | requested
  | paused
  deriving DecidableEq, Repr

/-- Whether the user asks for a pause. Case does not matter. -/
def wantsPause (c : Composition) : Bool :=
  match c.metadata.annotations.get? pauseAnnotation with
  | some v => v.toList.map Char.toLower == "true".toList
  | none => false

def pause (c : Composition) : Pause :=
  if !c.wantsPause then .active
  else if c.metadata.annotations.contains pauseTimeAnnotation then .paused
  else .requested

/-- When the pause took effect; `none` when that is not noted, or not as a time. -/
def pauseTime? (c : Composition) : Option Instant :=
  (c.metadata.annotations.get? pauseTimeAnnotation).bind Instant.readStrict?

/-- Notes when the pause took effect, to the second. -/
def setPauseTime (c : Composition) (t : Instant) : Composition :=
  c.withAnnotation pauseTimeAnnotation t.textToSecond

/-- Removes the note of when the pause took effect and says whether there was one. -/
def removePauseTime (c : Composition) : Composition × Bool :=
  let annotations := c.metadata.annotations
  ({ c with metadata := { c.metadata with annotations := annotations.erase pauseTimeAnnotation } },
    annotations.contains pauseTimeAnnotation)

end Composition

end Chartkeeper
