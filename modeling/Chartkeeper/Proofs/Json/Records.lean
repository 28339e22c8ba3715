import Chartkeeper.Composition.Basic
import Chartkeeper.Composition.Event
import Chartkeeper.Permission.Need
import Chartkeeper.Proofs.Json.Row
import Chartkeeper.Proofs.Time.Rfc3339
import Chartkeeper.Release.Basic
import Chartkeeper.Settings.Basic
/-!
# Records are read back as they were written

Each record is read back from its written form, whichever of its columns were left out: a column is
left out only for the value that stands in when it is missing. A record that holds other records is
read back because they are. Of its numbers and times only what the types themselves hold is assumed:
a revision has 32 bits, and an instant is one that the calendar has.

- `Composition.Proper`, `Status.Proper`, `Release.Proper`, `Settings.Proper`: what the types hold.
- `ofJson?_toJson`, for each record: it is read back.
- `records_read_back`: all of them.
-/

namespace Chartkeeper

@[simp] theorem Json.instant?_text {t : Instant} (h : t.Proper) :
    Json.instant? (.str t.text) = some t := by
  rw [Json.instant?, Json.str?_str, Option.bind_some, Instant.readLenient?_text h]

/-! ## Kinds, resources and manifest objects -/

@[simp] theorem ApiKind.ofJson?_toJson (k : ApiKind) : ofJson? k.toJson = some k := by
  unfold ofJson? toJson
  simp

@[simp] theorem ApiResource.ofJson?_toJson (r : ApiResource) : ofJson? r.toJson = some r := by
  unfold ofJson? toJson
  simp

@[simp] theorem ManagedResource.ofJson?_toJson (m : ManagedResource) :
    ofJson? m.toJson = some m := by
  unfold ofJson? toJson rows
  simp

theorem Outline.ofJson?_toJson (o : Outline) : ofJson? o.toJson = some o := by
  have hmetadata : metadata? (.ofRows [("name", .str o.name), ("namespace", .str o.namespaceName),
      ("annotations", .ofTexts o.annotations)]) =
        some (o.name, o.namespaceName, o.annotations) := by
    unfold metadata?
    simp
  unfold ofJson? toJson
  simp [hmetadata]

/-! ## Packages and releases -/

@[simp] theorem Credentials.ofJson?_toJson (c : Credentials) : ofJson? c.toJson = some c := by
  unfold ofJson? toJson
  simp

@[simp] theorem Definition.ofJson?_toJson (d : Definition) : ofJson? d.toJson = some d := by
  unfold ofJson? toJson
  simp

/-- Credentials that are missing are written as null. -/
theorem Package.ofJson?_toJson (p : Package) : ofJson? p.toJson = some p := by
  unfold ofJson? toJson
  rw [Row.ofJson?_ofRows, Option.bind_eq_bind, Option.bind_some,
    Row.optional_named p.auth Credentials.toJson]
  · simp
  · intro c hc
    exact ⟨rfl, c.ofJson?_toJson⟩
  · simp

@[simp] theorem ReleaseStatus.ofJson?_text (s : ReleaseStatus) :
    ofJson? (.str s.text) = some s := by
  cases s <;> rfl

/-- Revisions have 32 bits. -/
structure Release.Proper (r : Release) : Prop where
  revision : r.revision < Word.bound32

theorem Release.ofJson?_toJson {r : Release} (h : r.Proper) : ofJson? r.toJson = some r := by
  unfold ofJson? toJson
  simp [-Option.bind_some, Json.some_bind, Json.natBelow?_int h.revision]

/-! ## Permissions -/

theorem Requirement.ofJson?_toJson (r : Requirement) : ofJson? r.toJson = some r := by
  unfold ofJson? toJson
  simp

@[simp] theorem Rule.ofJson?_toJson (r : Rule) : ofJson? r.toJson = some r := by
  unfold ofJson? toJson
  simp

@[simp] theorem Subject.ofJson?_toJson (s : Subject) : ofJson? s.toJson = some s := by
  unfold ofJson? toJson
  simp

@[simp] theorem RoleLink.ofJson?_toJson (l : RoleLink) : ofJson? l.toJson = some l := by
  unfold ofJson? toJson
  simp

theorem Reference.ofJson?_toJson (r : Reference) : ofJson? r.toJson = some r := by
  unfold ofJson? toJson
  simp

theorem PermissionObject.kindAndBody?_toJson (o : PermissionObject) :
    kindAndBody? o.toJson = some (o.kind, o.toJson) := by
  unfold kindAndBody? toJson Json.ofRows
  cases o <;> simp

/-- The kind says which of the four forms is read. -/
theorem PermissionObject.ofJson?_toJson (o : PermissionObject) : ofJson? o.toJson = some o := by
  unfold ofJson?
  rw [kindAndBody?_toJson, Option.bind_eq_bind, Option.bind_some]
  cases o <;> simp [kind, PermissionObject.name, toJson]

/-! ## Events and settings -/

@[simp] theorem Severity.ofJson?_text (s : Severity) : ofJson? (.str s.text) = some s := by
  cases s <;> rfl

theorem Event.ofJson?_toJson (e : Event) : ofJson? e.toJson = some e := by
  unfold ofJson? toJson
  simp

/-- A history limit has 32 bits, a timeout 64. -/
structure Settings.Proper (s : Settings) : Prop where
  historyLimit : s.historyLimit < historyBound
  timeout : s.timeout < timeoutBound

theorem Settings.ofJson?_toJson {s : Settings} (h : s.Proper) : ofJson? s.toJson = some s := by
  unfold ofJson? toJson rows
  simp [-Option.bind_some, -Option.elim_some, Json.some_bind, Json.some_elim,
    Json.natBelow?_int h.historyLimit, Json.natBelow?_int h.timeout]

/-! ## Compositions -/

@[simp] theorem Verdict.ofJson?_text (v : Verdict) : ofJson? (.str v.text) = some v := by
  cases v <;> rfl

/-- A condition holds an instant. -/
def Condition.Proper (c : Condition) : Prop :=
  c.since.Proper

theorem Condition.ofJson?_toJson {c : Condition} (h : c.Proper) : ofJson? c.toJson = some c := by
  unfold ofJson? toJson
  simp [Json.instant?_text h]

def Status.Proper (s : Status) : Prop :=
  ∀ c ∈ s.conditions, c.Proper

theorem Status.ofJson?_toJson {s : Status} (h : s.Proper) : ofJson? s.toJson = some s := by
  have hconditions : ∀ c ∈ s.conditions, Condition.ofJson? c.toJson = some c :=
    fun c hc => Condition.ofJson?_toJson (h c hc)
  unfold ofJson? toJson
  simp [Json.list?_map hconditions]

def Metadata.Proper (m : Metadata) : Prop :=
  ∀ t ∈ m.deletionTime, t.Proper

theorem Metadata.ofJson?_toJson {m : Metadata} (h : m.Proper) : ofJson? m.toJson = some m := by
  unfold ofJson? toJson
  rw [Row.ofJson?_ofRows, Option.bind_eq_bind, Option.bind_some,
    Row.optional_named m.deletionTime (fun t => .str t.text)]
  · cases m with | mk _ _ _ _ _ deletionTime => cases deletionTime <;> simp
  · intro t ht
    exact ⟨rfl, Json.instant?_text (h t ht)⟩
  · cases m.deletionTime <;> simp

structure Composition.Proper (c : Composition) : Prop where
  metadata : c.metadata.Proper
  status : c.status.Proper

theorem Composition.ofJson?_toJson {c : Composition} (h : c.Proper) :
    ofJson? c.toJson = some c := by
  unfold ofJson? toJson
  simp [Metadata.ofJson?_toJson h.metadata, Status.ofJson?_toJson h.status]

/-! ## All records -/

/-- **Records are read back as they were written**, whichever of their columns are left out. -/
theorem records_read_back :
    (∀ c : Composition, c.Proper → Composition.ofJson? c.toJson = some c) ∧
      (∀ s : Status, s.Proper → Status.ofJson? s.toJson = some s) ∧
      (∀ c : Condition, c.Proper → Condition.ofJson? c.toJson = some c) ∧
      (∀ m : ManagedResource, ManagedResource.ofJson? m.toJson = some m) ∧
      (∀ m : Metadata, m.Proper → Metadata.ofJson? m.toJson = some m) ∧
      (∀ k : ApiKind, ApiKind.ofJson? k.toJson = some k) ∧
      (∀ r : ApiResource, ApiResource.ofJson? r.toJson = some r) ∧
      (∀ r : Release, r.Proper → Release.ofJson? r.toJson = some r) ∧
      (∀ o : Outline, Outline.ofJson? o.toJson = some o) ∧
      (∀ p : Package, Package.ofJson? p.toJson = some p) ∧
      (∀ r : Requirement, Requirement.ofJson? r.toJson = some r) ∧
      (∀ o : PermissionObject, PermissionObject.ofJson? o.toJson = some o) ∧
      (∀ r : Rule, Rule.ofJson? r.toJson = some r) ∧
      (∀ r : Reference, Reference.ofJson? r.toJson = some r) ∧
      (∀ e : Event, Event.ofJson? e.toJson = some e) ∧
      (∀ s : Settings, s.Proper → Settings.ofJson? s.toJson = some s) := by
  refine ⟨?_, ?_, ?_, ?_, ?_, ?_, ?_, ?_, ?_, ?_, ?_, ?_, ?_, ?_, ?_, ?_⟩
  · exact fun c => Composition.ofJson?_toJson
  · exact fun s => Status.ofJson?_toJson
  · exact fun c => Condition.ofJson?_toJson
  · exact ManagedResource.ofJson?_toJson
  · exact fun m => Metadata.ofJson?_toJson
  · exact ApiKind.ofJson?_toJson
  · exact ApiResource.ofJson?_toJson
  · exact fun r => Release.ofJson?_toJson
  · exact Outline.ofJson?_toJson
  · exact Package.ofJson?_toJson
  · exact Requirement.ofJson?_toJson
  · exact PermissionObject.ofJson?_toJson
  · exact Rule.ofJson?_toJson
  · exact Reference.ofJson?_toJson
  · exact Event.ofJson?_toJson
  · exact fun s => Settings.ofJson?_toJson

/-- A composition that is being deleted since a leap second: it has labels and a condition, but no
annotations, and what its status says of the chart is empty. -/
def leavingShop : Composition where
  apiVersion := "composition.krateo.io/v1-0-0"
  kind := "Web"
  metadata :=
    ⟨"shop", "apps", "3f2c9a1e", [("krateo.io/release-name", "shop-3f2c9a1e")], [],
      some ⟨1483228799, 1250000000⟩⟩
  spec := .ofRows [("replicas", .int 2), ("hosts", .arr [.str "a.example", .null])]
  status :=
    ⟨"b4d24b59678288f8", "", "", "", [⟨"v1", "configmaps", "motd", "", "/api/v1/configmaps/motd"⟩],
      [⟨"Ready", .no, "Unavailable", "", ⟨1483228800, 0⟩⟩]⟩

/-- A release at its last revision, of which nothing else is known. -/
def lastRelease : Release :=
  ⟨"shop", "apps", Release.lastRevision, .deployed, "", "", ""⟩

theorem records_read_back_leavingShop :
    leavingShop.Proper ∧ Composition.ofJson? leavingShop.toJson = some leavingShop ∧
      Status.ofJson? leavingShop.status.toJson = some leavingShop.status ∧
      (∀ c ∈ leavingShop.status.conditions, Condition.ofJson? c.toJson = some c) ∧
      Metadata.ofJson? leavingShop.metadata.toJson = some leavingShop.metadata ∧
      lastRelease.Proper ∧ Release.ofJson? lastRelease.toJson = some lastRelease ∧
      Settings.standard.Proper ∧
      Settings.ofJson? Settings.standard.toJson = some Settings.standard := by
  obtain ⟨hcomposition, hstatus, hcondition, -, hmetadata, -, -, hrelease, -, -, -, -, -, -, -,
    hsettings⟩ := records_read_back
  have hdeletion : leavingShop.metadata.Proper := by
    intro t ht
    obtain rfl := Option.mem_some.mp ht
    decide +kernel
  have hconditions : leavingShop.status.Proper := by
    intro c hc
    obtain rfl := List.mem_singleton.mp hc
    show Instant.Proper _
    decide +kernel
  have hlast : lastRelease.Proper := ⟨by decide⟩
  have hstandard : Settings.standard.Proper := ⟨by decide, by decide⟩
  have hproper : leavingShop.Proper := ⟨hdeletion, hconditions⟩
  exact ⟨hproper, hcomposition _ hproper, hstatus _ hconditions,
    fun c hc => hcondition c (hconditions c hc), hmetadata _ hdeletion, hlast, hrelease _ hlast,
    hstandard, hsettings _ hstandard⟩

end Chartkeeper
