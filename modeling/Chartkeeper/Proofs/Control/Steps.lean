import Chartkeeper.Control.Controller
import Chartkeeper.Proofs.Composition.Marks
import Chartkeeper.Proofs.Composition.Status
import Chartkeeper.Proofs.Control.Permissions
import Chartkeeper.Proofs.Manifest.Digest
/-!
# The steps of a controller

For each step that the four operations are put together from: what it did when it succeeded,
what it leaves alone in any case, and when it is sure to succeed as long as no call fails. A
release is made from what is alike in two records, so a record that was only marked or whose
status was written leads to the same release.
-/

namespace Chartkeeper

open World Chartkeeper.Composition

variable {α : Type} {k : Controller} {w w' : World} {c d stored : Composition} {name : String}
  {resource : ApiResource} {package : Package}

namespace Controller

/-! ## What a release is made from -/

theorem releaseKey_eq_of_namespaceName (h : d.namespaceName = c.namespaceName) (name : String) :
    releaseKey d name = releaseKey c name := by
  unfold releaseKey
  rw [h]

theorem releaseKey_eq_of_alike (h : Alike c d) (name : String) :
    releaseKey d name = releaseKey c name :=
  releaseKey_eq_of_namespaceName h.namespaceName name

theorem owner_eq_of_alike (h : Alike c d) (resource : ApiResource) (package : Package) :
    owner d resource package = owner c resource package := by
  unfold owner
  rw [show d.name = c.name from h.name, show d.namespaceName = c.namespaceName from h.namespaceName]

theorem apiKind_eq_of_alike (h : Alike c d) : d.apiKind = c.apiKind := by
  unfold apiKind
  rw [h.apiVersion, h.kind]

theorem action_eq_of_alike (h : Alike c d) (k : Controller) (package : Package)
    (resource : ApiResource) : k.action d package resource = k.action c package resource := by
  have hspec : Values.ofSpec d = Values.ofSpec c := by
    unfold Values.ofSpec
    rw [h.spec, h.key]
  have hidentity :
      Values.identity d resource k.platform = Values.identity c resource k.platform := by
    unfold Values.identity
    rw [show d.uid = c.uid from h.uid, show d.name = c.name from h.name,
      show d.namespaceName = c.namespaceName from h.namespaceName, h.apiVersion,
      apiKind_eq_of_alike h, h.kind, h.wantsPause]
  have hinject (v : Values) : v.inject d resource k.platform = v.inject c resource k.platform := by
    unfold Values.inject
    rw [hidentity, h.key]
  have hstamp : LabelStamp.of d resource k.platform = LabelStamp.of c resource k.platform := by
    unfold LabelStamp.of
    rw [show d.uid = c.uid from h.uid, show d.name = c.name from h.name,
      show d.namespaceName = c.namespaceName from h.namespaceName]
  unfold action
  simp only [hspec, hinject, hstamp]

/-! ## Storing -/

theorem saveRecord_ok (hd : w.Stores d) (hkey : c.key = d.key)
    (h : (saveRecord c).Ends troubled w (.ok stored) w') :
    stored = { d with metadata := c.metadata, spec := c.spec } ∧ w'.Stores stored :=
  Task.updateRecord_ok hd hkey (Program.ends_during_ok.mp h)

theorem saveStatus_ok (hd : w.Stores d) (hkey : c.key = d.key)
    (h : (saveStatus c).Ends troubled w (.ok stored) w') :
    stored = { d with status := c.status } ∧ w'.Stores stored :=
  Task.updateStatus_ok hd hkey (Program.ends_during_ok.mp h)

theorem saveRecord_error {fault : Fault} (h : (saveRecord c).Ends troubled w (.error fault) w') :
    Same .records w w' := by
  obtain ⟨r₀, hupdate, hr⟩ := Program.ends_during.mp h
  cases r₀ with
  | ok _ => exact nomatch hr
  | error _ => exact Task.updateRecord_error hupdate

theorem saveStatus_error {fault : Fault} (h : (saveStatus c).Ends troubled w (.error fault) w') :
    Same .records w w' := by
  obtain ⟨r₀, hupdate, hr⟩ := Program.ends_during.mp h
  cases r₀ with
  | ok _ => exact nomatch hr
  | error _ => exact Task.updateStatus_error hupdate

theorem clerical_saveRecord (c : Composition) : (saveRecord c).Only Port.Call.Clerical :=
  Program.only_during (Program.only_ask trivial)

theorem clerical_saveStatus (c : Composition) : (saveStatus c).Only Port.Call.Clerical :=
  Program.only_during (Program.only_ask trivial)

theorem leaves_saveRecord {x : Holding} (hx : x ≠ .records) (c : Composition) :
    Leaves x (saveRecord c) :=
  leaves_of_clerical hx (clerical_saveRecord c)

theorem sure_saveRecord (w : World) (c : Composition) : Program.Sure serving w (saveRecord c) :=
  Program.sure_during (Program.sure_ask _)

theorem sure_saveStatus (w : World) (c : Composition) : Program.Sure serving w (saveStatus c) :=
  Program.sure_during (Program.sure_ask _)

/-- Stores a record if marking it changed it. -/
def saveIf (changed : Bool) (record : Composition) : Task Composition :=
  if changed then saveRecord record else pure record

theorem bind_saveIf {changed : Bool} {f : Composition → Task α} :
    (if changed then saveRecord c >>= f else pure c >>= f) = saveIf changed c >>= f := by
  cases changed <;> rfl

/-- Either way, the marked record is the one that is stored then. -/
theorem saveIf_ok {changed : Bool} (hc : w.Stores c) (hsame : changed = false → d = c)
    (halike : d.key = c.key) (hkind : d.apiVersion = c.apiVersion ∧ d.kind = c.kind)
    (hstatus : d.status = c.status)
    (h : (saveIf changed d).Ends troubled w (.ok stored) w') : stored = d ∧ w'.Stores d := by
  cases changed with
  | false =>
      obtain rfl := hsame rfl
      obtain ⟨hstored, rfl⟩ := h
      exact ⟨Except.ok.inj hstored, hc⟩
  | true =>
      obtain ⟨hstored, hw'⟩ := saveRecord_ok hc halike h
      have heq : stored = d := by
        rw [hstored, ← hkind.1, ← hkind.2, ← hstatus]
      exact ⟨heq, heq ▸ hw'⟩

theorem saveIf_error {changed : Bool} {fault : Fault}
    (h : (saveIf changed c).Ends troubled w (.error fault) w') : Same .records w w' := by
  cases changed with
  | false => exact nomatch h.1
  | true => exact saveRecord_error h

theorem clerical_saveIf (changed : Bool) (c : Composition) :
    (saveIf changed c).Only Port.Call.Clerical := by
  cases changed with
  | false => exact Program.only_pure
  | true => exact clerical_saveRecord c

theorem leaves_saveIf {x : Holding} (hx : x ≠ .records) (changed : Bool) (c : Composition) :
    Leaves x (saveIf changed c) :=
  leaves_of_clerical hx (clerical_saveIf changed c)

theorem sure_saveIf (w : World) (changed : Bool) (c : Composition) :
    Program.Sure serving w (saveIf changed c) := by
  cases changed with
  | false => exact Program.sure_pure
  | true => exact sure_saveRecord w c

/-! ## Asking -/

theorem findPackage_ok (h : (findPackage c).Ends troubled w (.ok package) w') :
    package = w.package :=
  Task.resolve_ok (Program.ends_during_ok.mp h)

theorem findRelease_ok {found : Option Release}
    (h : (findRelease c name).Ends troubled w (.ok found) w') :
    found = w.backend.current? (releaseKey c name) :=
  Task.getRelease_ok (Program.ends_during_ok.mp h)

theorem findResource_ok (h : (findResource c).Ends troubled w (.ok resource) w') :
    w.mapper.resource c.apiKind = .ok resource :=
  Task.serve_ok (Program.ends_during_ok.mp h)

theorem inert_findPackage (c : Composition) : (findPackage c).Only Port.Call.Inert :=
  Program.only_during (Program.only_ask trivial)

theorem inert_findResource (c : Composition) : (findResource c).Only Port.Call.Inert :=
  Program.only_during (Program.only_ask trivial)

theorem leaves_findPackage (x : Holding) (c : Composition) : Leaves x (findPackage c) :=
  leaves_of_inert (inert_findPackage c) x

theorem leaves_findRelease (x : Holding) (c : Composition) (name : String) :
    Leaves x (findRelease c name) :=
  Program.only_during (Task.leaves_getRelease x _)

theorem leaves_findResource (x : Holding) (c : Composition) : Leaves x (findResource c) :=
  leaves_of_inert (inert_findResource c) x

theorem sure_findPackage (w : World) (c : Composition) :
    Program.Sure serving w (findPackage c) :=
  Program.sure_during (Program.sure_ask _)

theorem sure_findRelease (w : World) (c : Composition) (name : String) :
    Program.Sure serving w (findRelease c name) :=
  Program.sure_during (Program.sure_ask _)

theorem sure_findResource (w : World) (c : Composition) :
    Program.Sure serving w (findResource c) :=
  Program.sure_during (Program.sure_ask _)

/-- Telling of a record changes nothing. -/
theorem inert_told {event : Event} {a : α} :
    (do Task.announce c event; return a : Task α).Only Port.Call.Inert :=
  Program.only_bind (Task.inert_announce c event) fun _ => Program.only_pure

theorem leaves_told {x : Holding} {event : Event} {a : α} :
    Leaves x (do Task.announce c event; return a) :=
  leaves_of_inert inert_told x

/-! ## Permissions -/

theorem installPermissions_ok
    (h : (k.installPermissions c name resource package).Ends troubled w (.ok ()) w') :
    (owner c resource package).check k.account name = .ok () := by
  obtain ⟨_, _, hgenerate, -⟩ := Program.ends_bind_ok.mp h
  exact (Owner.generate_ok (Program.ends_during_ok.mp hgenerate)).1

theorem leaves_installPermissions {x : Holding} (hx : x ≠ .permissions) (k : Controller)
    (c : Composition) (name : String) (resource : ApiResource) (package : Package) :
    Leaves x (k.installPermissions c name resource package) :=
  Program.only_bind (Program.only_during (Owner.leaves_generate x _ _ _)) fun _ =>
    Program.only_during (Bundle.leaves_install hx _)

theorem sure_installPermissions
    (h : (owner c resource package).check k.account name = .ok ()) (w : World) :
    Program.Sure serving w (k.installPermissions c name resource package) :=
  Program.sure_bind (Program.sure_during (Owner.sure_generate h w)) fun _ _ _ =>
    Program.sure_during (Bundle.sure_install _ _)

/-! ## Describing a release -/

theorem describe_ok {release : Release} {managed : List ManagedResource} {digest : String}
    (h : (describe release).Ends troubled w (.ok (managed, digest)) w') :
    digest = Digest.ofManifest release.manifest ∧
      ∃ outlines, Manifest.decode .outline release.manifest = .ok (outlines, digest) ∧
        ManagedResource.ofOutlines w.mapper outlines = .ok managed := by
  unfold describe at h
  obtain ⟨⟨outlines, digest'⟩, _, ⟨hdecode, rfl⟩, hrest⟩ := Program.ends_bind_ok.mp h
  obtain ⟨managed', _, hmanaged, hpair, -⟩ := Program.ends_bind_ok.mp hrest
  obtain ⟨rfl, rfl⟩ := Prod.mk.inj (Except.ok.inj hpair)
  have hfound : Manifest.decode .outline release.manifest = .ok (outlines, digest) := by
    have hmapped := Fault.during_eq_ok.mp hdecode.symm
    cases hd : Manifest.decode .outline release.manifest with
    | ok found =>
        rw [hd] at hmapped
        exact congrArg _ (Except.ok.inj hmapped)
    | error fault =>
        rw [hd] at hmapped
        exact nomatch hmapped
  exact ⟨Manifest.digest_of_decode hfound, outlines, hfound,
    Task.manage_ok (Program.ends_during_ok.mp hmanaged)⟩

theorem inert_describe (release : Release) : (describe release).Only Port.Call.Inert :=
  Program.only_bind Program.only_lift fun _ =>
    Program.only_bind (Program.only_during (Program.only_ask trivial)) fun _ => Program.only_pure

theorem leaves_describe (x : Holding) (release : Release) : Leaves x (describe release) :=
  leaves_of_inert (inert_describe release) x

theorem sure_describe {release : Release} {found : List Outline × String}
    (h : Manifest.decode .outline release.manifest = .ok found) (w : World) :
    Program.Sure serving w (describe release) := by
  have hlift : Fault.during "decoding release"
      ((Manifest.decode .outline release.manifest).mapError Fault.digest) = .ok found := by
    rw [h]
    rfl
  exact Program.sure_bind (Program.sure_lift hlift) fun _ _ _ =>
    Program.sure_bind (Program.sure_during (Program.sure_ask _)) fun _ _ _ => Program.sure_pure

/-- As long as no call fails, a release that cannot be described cannot be read. -/
theorem illegible_of_describe {release : Release} {fault : Fault}
    (h : (describe release).Ends serving w (.error fault) w') :
    ¬∃ found, Manifest.decode .outline release.manifest = .ok found := by
  rintro ⟨found, hfound⟩
  obtain ⟨_, hok⟩ := sure_describe hfound w h
  exact nomatch hok

/-! ## Writing the status -/

theorem writeStatus_ok {write : StatusWrite} {changed : Bool}
    (h : (writeStatus c write).Ends troubled w (.ok (d, changed)) w') :
    ∃ now, d = { c with status := (c.status.apply write now).1 } ∧
      changed = (c.status.apply write now).2 := by
  unfold writeStatus at h
  obtain ⟨now, _, -, hpair, -⟩ := Program.ends_bind_ok.mp h
  obtain ⟨rfl, rfl⟩ := Prod.mk.inj (Except.ok.inj hpair)
  exact ⟨now, rfl, rfl⟩

theorem inert_writeStatus (c : Composition) (write : StatusWrite) :
    (writeStatus c write).Only Port.Call.Inert :=
  Program.only_bind (Program.only_ask trivial) fun _ => Program.only_pure

theorem leaves_writeStatus (x : Holding) (c : Composition) (write : StatusWrite) :
    Leaves x (writeStatus c write) :=
  leaves_of_inert (inert_writeStatus c write) x

theorem sure_writeStatus (w : World) (c : Composition) (write : StatusWrite) :
    Program.Sure serving w (writeStatus c write) :=
  Program.sure_bind (Program.sure_ask _) fun _ _ _ => Program.sure_pure

/-! ## Noting failures -/

/-- What has failed stays failed, whether it could be noted or not. -/
theorem not_ends_failNoted {operation : String} {fault : Fault} {a : α} :
    ¬(failNoted c operation fault : Task α).Ends troubled w (.ok a) w' := by
  intro h
  unfold failNoted at h
  obtain ⟨_, _, -, hannounce⟩ := Program.ends_bind_ok.mp h
  obtain ⟨_, _, -, hstore⟩ := Program.ends_bind_ok.mp hannounce
  obtain ⟨stored, _, -, hfail⟩ := Program.ends_bind_ok.mp hstore
  cases stored with
  | ok _ => exact nomatch hfail.1
  | error _ => exact nomatch hfail.1

theorem noted_ok {operation : String} {p : Task α} {a : α}
    (h : (noted c operation p).Ends troubled w (.ok a) w') : p.Ends troubled w (.ok a) w' := by
  unfold noted at h
  obtain ⟨r, mid, houtcome, hrest⟩ := Program.ends_bind_ok.mp h
  obtain ⟨r₀, hp, hr⟩ := Program.ends_outcome.mp houtcome
  obtain rfl := Except.ok.inj hr
  cases r with
  | ok b =>
      obtain ⟨hb, rfl⟩ := hrest
      rw [Except.ok.inj hb]
      exact hp
  | error fault => exact absurd hrest not_ends_failNoted

theorem clerical_failNoted (c : Composition) (operation : String) (fault : Fault) :
    (failNoted c operation fault : Task α).Only Port.Call.Clerical := by
  refine Program.only_bind (Program.only_ask trivial) fun _ => ?_
  refine Program.only_bind (Task.inert_announce _ _).clerical fun _ => ?_
  refine Program.only_bind (Program.only_outcome (Program.only_ask trivial)) fun stored => ?_
  cases stored with
  | ok _ => exact Program.only_fail
  | error _ => exact Program.only_fail

theorem leaves_failNoted {x : Holding} (hx : x ≠ .records) (operation : String) (fault : Fault) :
    Leaves x (failNoted c operation fault : Task α) :=
  leaves_of_clerical hx (clerical_failNoted c operation fault)

theorem only_noted {P : Port.Call → Prop} {operation : String} {p : Task α} (hp : p.Only P)
    (hfail : ∀ fault, (failNoted c operation fault : Task α).Only P) :
    (noted c operation p).Only P := by
  refine Program.only_bind (Program.only_outcome hp) fun r => ?_
  cases r with
  | ok a => exact Program.only_pure
  | error fault => exact hfail fault

theorem sure_noted {operation : String} {p : Task α} (hp : Program.Sure serving w p) :
    Program.Sure serving w (noted c operation p) := by
  refine Program.sure_bind Program.sure_outcome fun r mid houtcome => ?_
  obtain ⟨r₀, hp', hr⟩ := Program.ends_outcome.mp houtcome
  obtain rfl := Except.ok.inj hr
  obtain ⟨a, rfl⟩ := hp hp'
  exact Program.sure_pure

/-! ## Paused records -/

theorem create_of_paused (h : c.pause = .paused) :
    k.create c = (do
      announcePaused c "Create"
      return) :=
  if_pos h

theorem update_of_paused (h : c.pause = .paused) :
    update c = (do
      announcePaused c "Update"
      return) :=
  if_pos h

theorem delete_of_paused (h : c.pause = .paused) :
    k.delete c = (do
      announcePaused c "Delete"
      return) :=
  if_pos h

end Controller

/-! ## A small world -/

/-- A controller with an account, without a limit on histories. -/
def Controller.sample : Controller := ⟨0, "platform", ⟨"keeper", "platform"⟩⟩

/-- A record without a spec. -/
def Composition.sample : Composition := .of "composition/v1" "Web" "shop" "apps"

/-- A template of one object, of the kind of that record and named after its release. -/
def webTemplate : String :=
  "apiVersion: composition/v1\nkind: Web\nmetadata:\n  name: \x7b\x7b .Release.Name \x7d\x7d\n" ++
    "  namespace: \x7b\x7b .Release.Namespace \x7d\x7d\n"

/-- A world with one chart, where one record is stored. -/
def World.sample (template : String) (record : Composition) : World :=
  { World.empty fun _ => default with
    package := ⟨"chart", "web", "1.0.0", none, false, .empty⟩
    backend := Backend.empty.register "chart" ⟨"web", "1.0.0", template⟩
    mapper := Catalog.mapper [(("composition", "Web"), ⟨"webs", true⟩)]
    store := Store.empty.insert record }

theorem World.sample_stores (template : String) (record : Composition) :
    (World.sample template record).Stores record :=
  Assoc.get?_insert_self _ _ _

end Chartkeeper
