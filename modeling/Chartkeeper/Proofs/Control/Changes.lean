import Chartkeeper.Proofs.Control.Observe
/-!
# What creating and updating do

Both describe a release and record what they found. Creating first makes the release; updating
takes it as it is, and lets a pause take effect that was asked for. As for observing, one lemma
each says how the world looks after success, and one when success is sure.
-/

namespace Chartkeeper.Controller

open World Chartkeeper.Composition

variable {k : Controller} {w w' : World} {c d : Composition} {name : String} {package : Package}

/-- A release can be read, its objects can be found in the cluster, and these are they. -/
def Describes (w : World) (r : Release) (managed : List ManagedResource) (digest : String) : Prop :=
  digest = Digest.ofManifest r.manifest ∧
    ∃ outlines, Manifest.decode .outline r.manifest = .ok (outlines, digest) ∧
      ManagedResource.ofOutlines w.mapper outlines = .ok managed

/-- What a record asks for can be read once a release was described that fits it. -/
theorem Describes.legible {r : Release} {managed : List ManagedResource} {digest : String}
    (h : Describes w' r managed digest) (hfits : k.Fits w c r) : k.Legible w c := by
  obtain ⟨-, outlines, hdecode, -⟩ := h
  obtain ⟨rendered, hwanted, hr⟩ := hfits
  intro rendered' hwanted'
  obtain rfl : rendered = rendered' := Except.ok.inj (hwanted.symm.trans hwanted')
  rw [hr] at hdecode
  exact ⟨_, hdecode⟩

/-! ## Creating -/

/-- What the status says of a record whose release was created. -/
def createWrite (package : Package) (managed : List ManagedResource) (digest : String) :
    StatusWrite :=
  ((((StatusWrite.available "Composition created").forced).withManaged managed).withDigests
    "" digest).withChart package.url package.version

/-- Records a release that was created. -/
def recordCreated (record : Composition) (package : Package) (release : Release) :
    Task Unit := do
  let (managed, digest) ← describe release
  let (record, _) ← writeStatus record (createWrite package managed digest)
  Task.announce record
    ⟨.normal, "CompositionCreated", "Create", "Composition created: " ++ record.name⟩
  let record ← saveStatus record
  let _ ← saveRecord record.removePauseTime.1

/-- Makes the release of a record that carries its name. -/
def make (k : Controller) (name : String) (record : Composition) (package : Package) :
    Task Release := do
  let resource ← findResource record
  (k.installPermissions record name resource package).during "installing rbac"
  let action ← k.action record package resource
  let existing ← findRelease record name
  k.installOrUpgrade (releaseKey record name) package action existing

/-- Makes the release of a record that carries its name, and records it. -/
def createNamed (k : Controller) (name : String) (record : Composition) : Task Unit := do
  let package ← findPackage record
  let release ← k.make name record package
  recordCreated record package release

theorem create_of_not_paused (h : c.pause ≠ .paused) :
    k.create c = (do
      let (record, named) := c.setReleaseName c.releaseName
      saveIf named record >>= k.createNamed c.releaseName) := by
  unfold create
  rw [if_neg h]
  dsimp only
  rw [bind_saveIf]
  congr 1
  funext record
  unfold createNamed make
  congr 1
  funext package
  simp only [Program.bind_assoc]
  rfl

theorem recordCreated_ok {release : Release} (hd : w.Stores d) (hkey : c.key = d.key)
    (h : (recordCreated c package release).Ends troubled w (.ok ()) w') :
    ∃ managed digest now, Describes w release managed digest ∧
      w'.Stores { d with
        metadata := d.removePauseTime.1.metadata
        status := (c.status.apply (createWrite package managed digest) now).1 } := by
  obtain ⟨⟨managed, digest⟩, w₁, hdescribe, h₁⟩ := Program.ends_bind_ok.mp h
  obtain ⟨⟨written, _⟩, w₂, hwrite, h₂⟩ := Program.ends_bind_ok.mp h₁
  obtain ⟨_, w₃, hannounce, h₃⟩ := Program.ends_bind_ok.mp h₂
  obtain ⟨stored, w₄, hstatus, h₄⟩ := Program.ends_bind_ok.mp h₃
  obtain ⟨last, w₅, hrecord, -, rfl⟩ := Program.ends_bind_ok.mp h₄
  obtain ⟨now, rfl, -⟩ := writeStatus_ok hwrite
  have hd₃ : w₃.Stores d :=
    ((leaves_describe _ _).same hdescribe |>.trans
      ((leaves_writeStatus _ _ _).same hwrite |>.trans
        ((Task.leaves_announce _ _ _).same hannounce))).stores hd
  obtain ⟨rfl, hd₄⟩ := saveStatus_ok hd₃ (by exact hkey) hstatus
  obtain ⟨rfl, hd₅⟩ := saveRecord_ok hd₄ (by rfl) hrecord
  exact ⟨managed, digest, now, describe_ok hdescribe, hd₅⟩

/-- A creation that stops at recording left the status as it was, or as it would be. -/
theorem recordCreated_error {release : Release} {fault : Fault} (hc : w.Stores c)
    (h : (recordCreated c package release).Ends troubled w (.error fault) w') :
    ∃ status, w'.Stores { c with status } ∧ (status = c.status ∨
      ∃ managed digest now, Describes w release managed digest ∧
        status = (c.status.apply (createWrite package managed digest) now).1) := by
  have hkept {mid : World} (hsame : Same .records w mid) : mid.Stores { c with status := c.status } :=
    hsame.stores hc
  rcases Program.ends_bind.mp h with ⟨_, hdescribe, -⟩ | ⟨⟨managed, digest⟩, w₁, hdescribe, h₁⟩
  · exact ⟨_, hkept ((leaves_describe _ _).same hdescribe), Or.inl rfl⟩
  have hsame₁ : Same .records w w₁ := (leaves_describe _ _).same hdescribe
  rcases Program.ends_bind.mp h₁ with ⟨_, hwrite, -⟩ | ⟨⟨written, _⟩, w₂, hwrite, h₂⟩
  · exact ⟨_, hkept (hsame₁.trans ((leaves_writeStatus _ _ _).same hwrite)), Or.inl rfl⟩
  obtain ⟨now, rfl, -⟩ := writeStatus_ok hwrite
  obtain ⟨_, w₃, hannounce, h₃⟩ := (Task.sure_announce w₂ _ _).ends_bind h₂
  have hsame₃ : Same .records w w₃ := hsame₁.trans
    (((leaves_writeStatus _ _ _).same hwrite).trans ((Task.leaves_announce _ _ _).same hannounce))
  rcases Program.ends_bind.mp h₃ with ⟨_, hstatus, -⟩ | ⟨stored, w₄, hstatus, h₄⟩
  · exact ⟨_, hkept (hsame₃.trans (saveStatus_error hstatus)), Or.inl rfl⟩
  obtain ⟨rfl, hd⟩ := saveStatus_ok (hsame₃.stores hc) (by rfl) hstatus
  refine ⟨_, ?_, Or.inr ⟨managed, digest, now, describe_ok hdescribe, rfl⟩⟩
  rcases Program.ends_bind.mp h₄ with ⟨_, hlast, -⟩ | ⟨_, _, -, hdone, -⟩
  · exact (saveRecord_error hlast).stores hd
  · exact nomatch hdone

theorem installOrUpgrade_ok {key : ReleaseKey} {action : Action} {existing : Option Release}
    {release : Release}
    (h : (k.installOrUpgrade key package action existing).Ends troubled w (.ok release) w') :
    ∃ rendered, w.backend.render key package.url action = .ok rendered ∧
      release = { rendered with revision := release.revision } ∧
      w'.backend.current? key = some release := by
  cases existing with
  | none =>
      obtain ⟨hrender, -, hcurrent⟩ := Task.install_ok (Program.ends_during_ok.mp h)
      exact ⟨release, hrender, rfl, hcurrent⟩
  | some _ =>
      obtain ⟨rendered, current, hrender, -, hrelease, hcurrent⟩ :=
        Task.upgrade_ok (Program.ends_during_ok.mp h)
      exact ⟨rendered, hrender, by rw [hrelease], hcurrent⟩

theorem installOrUpgrade_error {key : ReleaseKey} {action : Action} {existing : Option Release}
    {fault : Fault}
    (h : (k.installOrUpgrade key package action existing).Ends troubled w (.error fault) w') :
    Same .releases w w' := by
  cases existing with
  | none =>
      obtain ⟨r₀, hinstall, hr⟩ := Program.ends_during.mp h
      cases r₀ with
      | ok _ => exact nomatch hr
      | error _ => exact Task.install_error hinstall
  | some _ =>
      obtain ⟨r₀, hupgrade, hr⟩ := Program.ends_during.mp h
      cases r₀ with
      | ok _ => exact nomatch hr
      | error _ => exact Task.upgrade_error hupgrade

theorem leaves_installOrUpgrade {x : Holding} (hx : x ≠ .releases) (k : Controller)
    (key : ReleaseKey) (package : Package) (action : Action) (existing : Option Release) :
    Leaves x (k.installOrUpgrade key package action existing) := by
  cases existing with
  | none => exact Program.only_during (Task.leaves_install hx _ _ _)
  | some _ => exact Program.only_during (Task.leaves_upgrade hx _ _ _ _)

theorem clerical_recordCreated (c : Composition) (package : Package) (release : Release) :
    (recordCreated c package release).Only Port.Call.Clerical := by
  refine Program.only_bind (inert_describe release).clerical fun described => ?_
  refine Program.only_bind (inert_writeStatus c _).clerical fun written => ?_
  refine Program.only_bind (Task.inert_announce _ _).clerical fun _ => ?_
  refine Program.only_bind (clerical_saveStatus _) fun _ => ?_
  exact Program.only_bind (clerical_saveRecord _) fun _ => Program.only_pure

theorem leaves_recordCreated {x : Holding} (hx : x ≠ .records) (c : Composition)
    (package : Package) (release : Release) : Leaves x (recordCreated c package release) :=
  leaves_of_clerical hx (clerical_recordCreated c package release)

/-- What was made fits the record. -/
theorem make_ok {r : Release} (hname : c.releaseName = name)
    (h : (k.make name c w.package).Ends troubled w (.ok r) w') :
    k.Fits w c r ∧ w'.backend.current? (releaseKey c c.releaseName) = some r := by
  subst hname
  obtain ⟨resource, w₁, hresource, h₁⟩ := Program.ends_bind_ok.mp h
  obtain ⟨_, _, hpermissions, h₂⟩ := Program.ends_bind_ok.mp h₁
  obtain ⟨action, w₂, ⟨haction, rfl⟩, h₃⟩ := Program.ends_bind_ok.mp h₂
  obtain ⟨existing, w₃, hfind, hinstall⟩ := Program.ends_bind_ok.mp h₃
  replace hpermissions := Program.ends_during_ok.mp hpermissions
  have hw₃ : w₃.surroundings = w.surroundings := by
    rw [surroundings_ends hfind, surroundings_ends hpermissions, surroundings_ends hresource]
  obtain ⟨rendered, hrender, hr, hcurrent⟩ := installOrUpgrade_ok hinstall
  rw [render_eq_of_surroundings hw₃] at hrender
  have hwanted : k.wanted w c = .ok rendered :=
    wanted_eq_ok.mpr ⟨resource, action, findResource_ok hresource,
      installPermissions_ok hpermissions, haction.symm, hrender⟩
  exact ⟨⟨rendered, hwanted, hr⟩, hcurrent⟩

/-- Wherever the making of a release stops, the releases are as they were. -/
theorem make_error {fault : Fault}
    (h : (k.make name c package).Ends troubled w (.error fault) w') : Same .releases w w' := by
  refine (leaves_findResource _ c).same_bind (fun resource w₁ h₁ => ?_) h
  refine Leaves.same_bind
    (Program.only_during (leaves_installPermissions (by decide) k c name resource package))
    (fun _ w₂ h₂ => ?_) h₁
  refine Leaves.same_bind Program.only_lift (fun action w₃ h₃ => ?_) h₂
  refine (leaves_findRelease _ c name).same_bind (fun existing w₄ h₄ => ?_) h₃
  exact installOrUpgrade_error h₄

theorem leaves_make {x : Holding} (hreleases : x ≠ .releases) (hpermissions : x ≠ .permissions)
    (k : Controller) (name : String) (c : Composition) (package : Package) :
    Leaves x (k.make name c package) := by
  refine Program.only_bind (leaves_findResource x c) fun resource => ?_
  refine Program.only_bind
    (Program.only_during (leaves_installPermissions hpermissions k c name resource package)) ?_
  refine fun _ => Program.only_bind Program.only_lift fun action => ?_
  refine Program.only_bind (leaves_findRelease x c name) fun existing => ?_
  exact leaves_installOrUpgrade hreleases k _ package action existing

theorem Describes.congr {r : Release} {managed : List ManagedResource} {digest : String}
    (hw : w'.surroundings = w.surroundings) (h : Describes w r managed digest) :
    Describes w' r managed digest := by
  unfold Describes at h ⊢
  rw [show w'.mapper = w.mapper from congrArg Surroundings.mapper hw]
  exact h

/-- What is found in a release is found in one way. -/
theorem Describes.eq {r : Release} {managed managed' : List ManagedResource}
    {digest digest' : String} (h : Describes w r managed digest)
    (h' : Describes w r managed' digest') : managed' = managed ∧ digest' = digest := by
  obtain ⟨rfl, outlines, hdecode, hmanaged⟩ := h
  obtain ⟨rfl, outlines', hdecode', hmanaged'⟩ := h'
  have hsame : outlines' = outlines := by
    have hpair := Except.ok.inj (hdecode'.symm.trans hdecode)
    exact (Prod.mk.inj hpair).1
  subst hsame
  exact ⟨Except.ok.inj (hmanaged'.symm.trans hmanaged), rfl⟩

/-- Releases that fit the same record are described alike. -/
theorem Describes.of_fits {rel rel' : Release} {managed : List ManagedResource} {digest : String}
    (h : Describes w rel managed digest) (hfits : k.Fits w c rel) (hfits' : k.Fits w c rel') :
    Describes w rel' managed digest := by
  have hmanifest : rel'.manifest = rel.manifest := by rw [hfits.eq hfits']
  unfold Describes at h ⊢
  rw [hmanifest]
  exact h

/-- What is found in the release that a record asks for. -/
def Finds (k : Controller) (w : World) (c : Composition) (managed : List ManagedResource)
    (digest : String) : Prop :=
  ∃ r, k.Fits w c r ∧ Describes w r managed digest

theorem Finds.congr {managed : List ManagedResource} {digest : String}
    (hw : w'.surroundings = w.surroundings) (halike : Alike c d)
    (h : k.Finds w c managed digest) : k.Finds w' d managed digest := by
  obtain ⟨r, hfits, hdescribed⟩ := h
  exact ⟨r, hfits.congr hw halike, hdescribed.congr hw⟩

/-- There is one thing to find. -/
theorem Finds.eq {managed managed' : List ManagedResource} {digest digest' : String}
    (h : k.Finds w c managed digest) (h' : k.Finds w c managed' digest') :
    managed' = managed ∧ digest' = digest := by
  obtain ⟨r, hfits, hdescribed⟩ := h
  obtain ⟨r', hfits', hdescribed'⟩ := h'
  exact hdescribed.eq (hdescribed'.of_fits hfits' hfits)

theorem createNamed_ok (hd : w.Stores d) (halike : Alike d c) (hname : c.releaseName = name)
    (h : (k.createNamed name c).Ends troubled w (.ok ()) w') :
    ∃ r managed digest now, k.Fits w c r ∧ Describes w r managed digest ∧
      w'.backend.current? (releaseKey c c.releaseName) = some r ∧
      w'.Stores { d with
        metadata := d.removePauseTime.1.metadata
        status := (c.status.apply (createWrite w.package managed digest) now).1 } := by
  obtain ⟨package, w₁, hpackage, h₁⟩ := Program.ends_bind_ok.mp h
  obtain ⟨r, w₂, hmake, h₂⟩ := Program.ends_bind_ok.mp h₁
  have hw₁ := surroundings_ends hpackage
  have hw₂ := (surroundings_ends hmake).trans hw₁
  have hd₂ : w₂.Stores d :=
    (((leaves_findPackage _ _).same hpackage).trans
      ((leaves_make (by decide) (by decide) _ _ _ _).same hmake)).stores hd
  rw [(findPackage_ok hpackage).trans (congrArg Surroundings.package hw₁).symm] at hmake
  obtain ⟨hfits, hcurrent⟩ := make_ok hname hmake
  obtain ⟨managed, digest, now, hdescribed, hstored⟩ := recordCreated_ok hd₂ halike.key h₂
  rw [findPackage_ok hpackage] at hstored
  refine ⟨r, managed, digest, now, hfits.congr hw₁.symm (Alike.refl c),
    hdescribed.congr hw₂.symm, ?_, hstored⟩
  rw [((leaves_recordCreated (by decide) _ _ _).same h₂).current?]
  exact hcurrent

/-- Naming a record stores one that is alike, and goes on with the named record. -/
theorem saveNamed_ok {record : Composition} (hd : w.Stores d) (halike : Alike c d)
    (hstatus : d.status = c.status)
    (h : (saveIf (c.setReleaseName c.releaseName).2
      (c.setReleaseName c.releaseName).1).Ends troubled w (.ok record) w') :
    record = (c.setReleaseName c.releaseName).1 ∧
      ∃ e, w'.Stores e ∧ Alike c e ∧ e.status = c.status ∧
        (e = d ∨ e = (c.setReleaseName c.releaseName).1) := by
  have hnamed := alike_setReleaseName c
  have hkept := status_setReleaseName c c.releaseName
  have hsame : (c.setReleaseName c.releaseName).2 = false →
      (c.setReleaseName c.releaseName).1 = c := eq_of_setReleaseName
  generalize c.setReleaseName c.releaseName = naming at hnamed hkept hsame h ⊢
  obtain ⟨named, changed⟩ := naming
  cases changed with
  | false =>
      obtain ⟨hrecord, rfl⟩ := h
      exact ⟨Except.ok.inj hrecord, d, hd, halike, hstatus, Or.inl rfl⟩
  | true =>
      obtain ⟨hrecord, hstored⟩ := saveRecord_ok hd (hnamed.key.trans halike.key.symm) h
      have heq : record = named := by
        rw [hrecord, halike.apiVersion, halike.kind, hstatus, ← hnamed.apiVersion,
          ← hnamed.kind, ← hkept]
      rw [heq] at hstored
      exact ⟨heq, named, hstored, hnamed, hkept, Or.inr rfl⟩

/-- **What creating did.** The release fits the record and is the current one, and the stored
record describes it. -/
theorem create_ok (hd : w.Stores d) (halike : Alike c d) (hstatus : d.status = c.status)
    (hpause : c.pause ≠ .paused) (h : (k.create c).Ends troubled w (.ok ()) w') :
    ∃ r managed digest now e, k.Fits w c r ∧ Describes w r managed digest ∧
      w'.backend.current? (releaseKey c c.releaseName) = some r ∧ w'.Stores e ∧ Alike c e ∧
      e.status = (c.status.apply (createWrite w.package managed digest) now).1 := by
  rw [create_of_not_paused hpause] at h
  obtain ⟨record, w₁, hsave, h₁⟩ := Program.ends_bind_ok.mp h
  obtain ⟨hrecord, e, he, hce, -⟩ := saveNamed_ok hd halike hstatus hsave
  have hnamed : Alike c record := hrecord ▸ alike_setReleaseName c
  have hkept : record.status = c.status := hrecord ▸ status_setReleaseName c c.releaseName
  have hw := surroundings_ends hsave
  obtain ⟨r, managed, digest, now, hfits, hdescribed, hcurrent, hstored⟩ :=
    createNamed_ok he (hce.symm.trans hnamed) hnamed.releaseName h₁
  rw [show w₁.package = w.package from congrArg Surroundings.package hw, hkept] at hstored
  refine ⟨r, managed, digest, now, _, hfits.congr hw.symm hnamed.symm, hdescribed.congr hw.symm,
    ?_, hstored, ?_, rfl⟩
  · rw [← releaseKey_eq_of_alike hnamed, ← hnamed.releaseName]
    exact hcurrent
  · refine hce.trans ((alike_removePauseTime ?_).trans (alike_status _ _))
    rw [hce.pause]
    exact hpause

/-- As long as no call fails, recording a release stops only where it cannot be read. -/
theorem recordCreated_stops {release : Release} {r : Except Fault Unit}
    (h : (recordCreated c package release).Ends serving w r w') :
    r = .ok () ∨ ((¬∃ found, Manifest.decode .outline release.manifest = .ok found) ∧
      Same .records w w' ∧ Same .releases w w') := by
  rcases Program.ends_bind.mp h with ⟨fault, hdescribe, -⟩ | ⟨described, w₁, -, hrest⟩
  · refine Or.inr ⟨illegible_of_describe hdescribe, ?_, ?_⟩
    · exact (leaves_describe _ _).same (troubled_of_serving hdescribe)
    · exact (leaves_describe _ _).same (troubled_of_serving hdescribe)
  · left
    obtain ⟨written, w₂, -, h₂⟩ := (sure_writeStatus w₁ c _).ends_bind hrest
    obtain ⟨_, w₃, -, h₃⟩ := (Task.sure_announce w₂ _ _).ends_bind h₂
    obtain ⟨stored, w₄, -, h₄⟩ := (sure_saveStatus w₃ _).ends_bind h₃
    obtain ⟨_, w₅, -, hr, -⟩ := (sure_saveRecord w₄ _).ends_bind h₄
    exact hr

theorem sure_installOrUpgrade (k : Controller) (w : World) (key : ReleaseKey)
    (package : Package) (action : Action) (existing : Option Release) :
    Program.Sure serving w (k.installOrUpgrade key package action existing) := by
  cases existing with
  | none => exact Program.sure_during (Program.sure_ask _)
  | some _ => exact Program.sure_during (Program.sure_ask _)

theorem sure_make (hname : c.releaseName = name) (hc : k.Makeable w c) :
    Program.Sure serving w (k.make name c w.package) := by
  subst hname
  refine Program.sure_bind (sure_findResource w c) fun resource w₁ hresource => ?_
  obtain ⟨hcheck, action, haction⟩ :=
    hc resource (findResource_ok (troubled_of_serving hresource))
  refine Program.sure_bind (Program.sure_during (sure_installPermissions hcheck w₁)) ?_
  intro _ w₂ _
  refine Program.sure_bind (Program.sure_lift haction) fun action w₃ _ => ?_
  refine Program.sure_bind (sure_findRelease w₃ c _) fun existing w₄ _ => ?_
  exact sure_installOrUpgrade k w₄ _ w.package action existing

/-- As long as no call fails, creating stops only after the release was made, where that cannot
be read. -/
theorem create_stops {r : Except Fault Unit} (hd : w.Stores d) (halike : Alike c d)
    (hstatus : d.status = c.status) (hpause : c.pause ≠ .paused) (hc : k.Makeable w c)
    (h : (k.create c).Ends serving w r w') :
    r = .ok () ∨ ∃ rel e, k.Fits w c rel ∧
      (¬∃ found, Manifest.decode .outline rel.manifest = .ok found) ∧
      w'.backend.current? (releaseKey c c.releaseName) = some rel ∧ w'.Stores e ∧ Alike c e ∧
      e.status = c.status := by
  rw [create_of_not_paused hpause] at h
  obtain ⟨record, w₁, hsave, h₁⟩ := (sure_saveIf w _ _).ends_bind h
  replace hsave := troubled_of_serving hsave
  obtain ⟨hrecord, e, he, hce, hkept, -⟩ := saveNamed_ok hd halike hstatus hsave
  have hnamed : Alike c record := hrecord ▸ alike_setReleaseName c
  obtain ⟨package, w₂, hpackage, h₂⟩ := (sure_findPackage w₁ record).ends_bind h₁
  replace hpackage := troubled_of_serving hpackage
  have hw₂ : w₂.surroundings = w.surroundings :=
    (surroundings_ends hpackage).trans (surroundings_ends hsave)
  rw [(findPackage_ok hpackage).trans
    (congrArg Surroundings.package (surroundings_ends hpackage)).symm] at h₂
  obtain ⟨rel, w₃, hmake, h₃⟩ := (sure_make hnamed.releaseName (hc.congr hw₂ hnamed)).ends_bind h₂
  replace hmake := troubled_of_serving hmake
  obtain ⟨hfits, hcurrent⟩ := make_ok hnamed.releaseName hmake
  rcases recordCreated_stops h₃ with hr | ⟨hillegible, hrecords, hreleases⟩
  · exact Or.inl hr
  · refine Or.inr ⟨rel, e, hfits.congr hw₂.symm hnamed.symm, hillegible, ?_, ?_, hce, hkept⟩
    · rw [← releaseKey_eq_of_alike hnamed, ← hnamed.releaseName, hreleases.current?]
      exact hcurrent
    · exact hrecords.stores (((leaves_findPackage _ _).same hpackage |>.trans
        ((leaves_make (by decide) (by decide) _ _ _ _).same hmake)).stores he)

/-! ## Updating -/

/-- What the status says of a record whose values were updated. -/
def updateWrite (package : Package) (previous digest : String) : StatusWrite :=
  ((StatusWrite.available "Composition values updated").withDigests previous digest).withChart
    package.url package.version

/-- Lets a pause take effect if one is asked for, and stores the record. -/
def settle (record : Composition) (write : StatusWrite) : Task Unit := do
  let record ←
    if record.wantsPause then enterPause record write else pure record.removePauseTime.1
  let _ ← saveRecord record

/-- Records a release as it is found. -/
def recordUpdated (record : Composition) (package : Package) (release : Release) :
    Task Unit := do
  let (managed, digest) ← describe release
  Task.announce record
    ⟨.normal, "CompositionUpdated", "Update", "Updated composition: " ++ record.name⟩
  let write := updateWrite package record.status.digest digest
  let (record, _) ← writeStatus { record with status := { record.status with managed } } write
  let record ← saveStatus record
  settle record write

theorem update_of_not_paused (h : c.pause ≠ .paused) :
    update c = (do
      let package ← findPackage c
      match ← findRelease c c.releaseName with
      | none => .fail (.releaseNotFound c.releaseName)
      | some release => recordUpdated c package release) := by
  unfold update
  rw [if_neg h]
  rfl

/-- The time of the pause is noted in the record that goes on, and the pause in the status. -/
theorem enterPause_ok {write : StatusWrite} {record : Composition} (hd : w.Stores d)
    (h : (enterPause d write).Ends troubled w (.ok record) w') :
    ∃ noted now, record.metadata = (d.setPauseTime noted).metadata ∧ record.spec = d.spec ∧
      w'.Stores { d with status := (d.status.apply write.asPaused now).1 } := by
  obtain ⟨noted, w₁, hnow, h₁⟩ := Program.ends_bind_ok.mp h
  obtain ⟨⟨written, changed⟩, w₂, hwrite, h₂⟩ := Program.ends_bind_ok.mp h₁
  have hd₂ : w₂.Stores d :=
    (((Task.leaves_now _).same hnow).trans ((leaves_writeStatus _ _ _).same hwrite)).stores hd
  obtain ⟨now, rfl, hchanged⟩ := writeStatus_ok hwrite
  cases changed with
  | false =>
      obtain ⟨_, _, hannounce, hrecord, rfl⟩ := Program.ends_bind_ok.mp h₂
      obtain rfl := Except.ok.inj hrecord
      have hsame : (d.status.apply write.asPaused now).1 = d.status :=
        Status.apply_unchanged_iff.mp hchanged.symm
      refine ⟨noted, now, rfl, rfl, ?_⟩
      rw [hsame]
      exact ((Task.leaves_announce _ _ _).same hannounce).stores hd₂
  | true =>
      obtain ⟨stored, w₃, hstatus, h₃⟩ := Program.ends_bind_ok.mp h₂
      obtain ⟨_, _, hannounce, hrecord, rfl⟩ := Program.ends_bind_ok.mp h₃
      obtain rfl := Except.ok.inj hrecord
      -- The record that goes on is the one with the noted time, not the one that was stored.
      obtain ⟨rfl, hd₃⟩ := saveStatus_ok hd₂ (by rfl) hstatus
      exact ⟨noted, now, rfl, rfl, ((Task.leaves_announce _ _ _).same hannounce).stores hd₃⟩

/-- A record for which a pause is asked is paused then; for any other no pause is noted. -/
theorem settle_ok {write : StatusWrite} (hd : w.Stores d)
    (h : (settle d write).Ends troubled w (.ok ()) w') :
    (d.wantsPause = false ∧ w'.Stores { d with metadata := d.removePauseTime.1.metadata }) ∨
      (d.wantsPause = true ∧ ∃ noted now, w'.Stores { d with
        metadata := (d.setPauseTime noted).metadata
        status := (d.status.apply write.asPaused now).1 }) := by
  unfold settle at h
  cases hwants : d.wantsPause with
  | false =>
      rw [hwants] at h
      obtain ⟨_, _, hsave, -, rfl⟩ :=
        (Program.ends_bind_ok (p := saveRecord d.removePauseTime.1)).mp h
      obtain ⟨rfl, hstored⟩ := saveRecord_ok hd (by rfl) hsave
      exact Or.inl ⟨rfl, hstored⟩
  | true =>
      rw [hwants] at h
      obtain ⟨record, w₁, henter, h₁⟩ :=
        (Program.ends_bind_ok (p := enterPause d write)).mp h
      obtain ⟨_, _, hsave, -, rfl⟩ := Program.ends_bind_ok.mp h₁
      obtain ⟨noted, now, hmetadata, hspec, hd₁⟩ := enterPause_ok hd henter
      have hkey : record.key = d.key := by
        unfold Composition.key Composition.namespaceName Composition.name
        rw [hmetadata]
        rfl
      obtain ⟨rfl, hstored⟩ := saveRecord_ok hd₁ hkey hsave
      rw [hmetadata, hspec] at hstored
      exact Or.inr ⟨rfl, noted, now, hstored⟩

theorem clerical_settle (c : Composition) (write : StatusWrite) :
    (settle c write).Only Port.Call.Clerical := by
  have hstored (record : Composition) :
      (do let _ ← saveRecord record : Task Unit).Only Port.Call.Clerical :=
    Program.only_bind (clerical_saveRecord record) fun _ => Program.only_pure
  unfold settle
  cases c.wantsPause with
  | false => exact Program.only_bind Program.only_lift fun record => hstored record
  | true =>
      refine Program.only_bind (p := enterPause c write) ?_ hstored
      refine Program.only_bind (Program.only_ask trivial) fun noted => ?_
      refine Program.only_bind (inert_writeStatus _ _).clerical fun written => ?_
      obtain ⟨written, changed⟩ := written
      cases changed with
      | false => exact inert_told.clerical
      | true => exact Program.only_bind (clerical_saveStatus _) fun _ => inert_told.clerical

theorem clerical_recordUpdated (c : Composition) (package : Package) (release : Release) :
    (recordUpdated c package release).Only Port.Call.Clerical := by
  refine Program.only_bind (inert_describe release).clerical fun described => ?_
  refine Program.only_bind (Task.inert_announce _ _).clerical fun _ => ?_
  refine Program.only_bind (inert_writeStatus _ _).clerical fun written => ?_
  exact Program.only_bind (clerical_saveStatus _) fun record => clerical_settle record _

theorem leaves_recordUpdated {x : Holding} (hx : x ≠ .records) (c : Composition)
    (package : Package) (release : Release) : Leaves x (recordUpdated c package release) :=
  leaves_of_clerical hx (clerical_recordUpdated c package release)

/-- Updating changes nothing but records. -/
theorem leaves_update {x : Holding} (hx : x ≠ .records) (c : Composition) :
    Leaves x (update c) := by
  by_cases hpause : c.pause = .paused
  · rw [update_of_paused hpause]
    exact leaves_told
  · rw [update_of_not_paused hpause]
    refine Program.only_bind (leaves_findPackage x c) fun package => ?_
    refine Program.only_bind (leaves_findRelease x c _) fun found => ?_
    cases found with
    | none => exact Program.only_fail
    | some release => exact leaves_recordUpdated hx c package release

/-- The status of a record whose release was described by an update. -/
def updatedStatus (s : Status) (package : Package) (managed : List ManagedResource)
    (digest : String) (now : Instant) : Status :=
  ({ s with managed }.apply (updateWrite package s.digest digest) now).1

/-- The status of such a record once a pause has taken effect. -/
def pausedStatus (s : Status) (package : Package) (managed : List ManagedResource)
    (digest : String) (now later : Instant) : Status :=
  ((updatedStatus s package managed digest now).apply
    (updateWrite package s.digest digest).asPaused later).1

theorem recordUpdated_ok {release : Release} (hd : w.Stores d) (hkey : c.key = d.key)
    (h : (recordUpdated c package release).Ends troubled w (.ok ()) w') :
    ∃ managed digest now, Describes w release managed digest ∧
      ((d.wantsPause = false ∧ w'.Stores { d with
          metadata := d.removePauseTime.1.metadata
          status := updatedStatus c.status package managed digest now }) ∨
        (d.wantsPause = true ∧ ∃ noted later, w'.Stores { d with
          metadata := (d.setPauseTime noted).metadata
          status := pausedStatus c.status package managed digest now later })) := by
  obtain ⟨⟨managed, digest⟩, w₁, hdescribe, h₁⟩ := Program.ends_bind_ok.mp h
  obtain ⟨_, w₂, hannounce, h₂⟩ := Program.ends_bind_ok.mp h₁
  obtain ⟨⟨written, _⟩, w₃, hwrite, h₃⟩ := Program.ends_bind_ok.mp h₂
  obtain ⟨stored, w₄, hstatus, h₄⟩ := Program.ends_bind_ok.mp h₃
  obtain ⟨now, rfl, -⟩ := writeStatus_ok hwrite
  have hd₃ : w₃.Stores d :=
    (((leaves_describe _ _).same hdescribe).trans
      (((Task.leaves_announce _ _ _).same hannounce).trans
        ((leaves_writeStatus _ _ _).same hwrite))).stores hd
  obtain ⟨rfl, hd₄⟩ := saveStatus_ok hd₃ (by exact hkey) hstatus
  refine ⟨managed, digest, now, describe_ok hdescribe, ?_⟩
  rcases settle_ok hd₄ h₄ with ⟨hwants, hstored⟩ | ⟨hwants, noted, later, hstored⟩
  · exact Or.inl ⟨hwants, hstored⟩
  · exact Or.inr ⟨hwants, noted, later, hstored⟩

/-- Updating looks the release up, and writes nothing before it has found one. -/
theorem update_cut (hpause : c.pause ≠ .paused) (h : (update c).Ends troubled w (.ok ()) w') :
    ∃ r w₁, w.backend.current? (releaseKey c c.releaseName) = some r ∧
      w₁.surroundings = w.surroundings ∧ w₁.store = w.store ∧ Same .releases w w₁ ∧
      (recordUpdated c w.package r).Ends troubled w₁ (.ok ()) w' := by
  rw [update_of_not_paused hpause] at h
  obtain ⟨package, w₁, hpackage, h₁⟩ := Program.ends_bind_ok.mp h
  obtain ⟨found, w₂, hfind, h₂⟩ := Program.ends_bind_ok.mp h₁
  obtain rfl := findPackage_ok hpackage
  have hreleases₁ : Same .releases w w₁ := (leaves_findPackage _ _).same hpackage
  have hfound := findRelease_ok hfind
  rw [hreleases₁.current?] at hfound
  cases found with
  | none => exact nomatch h₂.1
  | some r =>
      refine ⟨r, w₂, hfound.symm, (surroundings_ends hfind).trans (surroundings_ends hpackage), ?_,
        hreleases₁.trans ((leaves_findRelease _ _ _).same hfind), h₂⟩
      rw [(leaves_findRelease .records _ _).store hfind,
        (leaves_findPackage .records _).store hpackage]

/-- **What updating did.** The stored record describes the release, which stays as it was, and a
pause that was asked for has taken effect. -/
theorem update_ok (hd : w.Stores d) (halike : Alike c d) (hpause : c.pause ≠ .paused)
    (h : (update c).Ends troubled w (.ok ()) w') :
    ∃ r managed digest now e, w.backend.current? (releaseKey c c.releaseName) = some r ∧
      Describes w r managed digest ∧ Same .releases w w' ∧ w'.Stores e ∧
      ((c.pause = .active ∧ Alike c e ∧
          e.status = updatedStatus c.status w.package managed digest now) ∨
        (c.pause = .requested ∧ e.pause = .paused ∧ e.isDeleting = c.isDeleting ∧
          e.key = c.key)) := by
  obtain ⟨r, w₁, hfound, hw, hstore, hreleases, h₁⟩ := update_cut hpause h
  have hd₁ : w₁.Stores d := by
    unfold Stores
    rw [hstore]
    exact hd
  obtain ⟨managed, digest, now, hdescribed, hstored⟩ := recordUpdated_ok hd₁ halike.key.symm h₁
  replace hdescribed := hdescribed.congr hw.symm
  have hreleases' := hreleases.trans ((leaves_recordUpdated (by decide) _ _ _).same h₁)
  refine ⟨r, managed, digest, now, ?_⟩
  rcases hstored with ⟨hwants, hstored⟩ | ⟨hwants, noted, later, hstored⟩
  · refine ⟨_, hfound, hdescribed, hreleases', hstored, Or.inl ⟨?_, ?_, rfl⟩⟩
    · rw [← halike.pause]
      exact pause_eq_active_iff.mpr hwants
    · refine halike.trans ((alike_removePauseTime ?_).trans (alike_status _ _))
      rw [halike.pause]
      exact hpause
  · refine ⟨_, hfound, hdescribed, hreleases', hstored,
      Or.inr ⟨?_, ?_, halike.isDeleting, halike.key⟩⟩
    · have hactive : c.pause ≠ .active := by
        rw [← halike.pause]
        intro hactive
        rw [pause_eq_active_iff.mp hactive] at hwants
        exact nomatch hwants
      cases hc : c.pause with
      | active => exact absurd hc hactive
      | requested => rfl
      | paused => exact absurd hc hpause
    · exact pause_setPauseTime hwants noted

theorem sure_settle (w : World) (c : Composition) (write : StatusWrite) :
    Program.Sure serving w (settle c write) := by
  unfold settle
  cases c.wantsPause with
  | false =>
      exact Program.sure_bind Program.sure_pure fun _ _ _ =>
        Program.sure_bind (sure_saveRecord _ _) fun _ _ _ => Program.sure_pure
  | true =>
      refine Program.sure_bind (p := enterPause c write) ?_ fun record w₁ _ =>
        Program.sure_bind (sure_saveRecord w₁ record) fun _ _ _ => Program.sure_pure
      refine Program.sure_bind (Program.sure_ask _) fun noted w₁ _ => ?_
      refine Program.sure_bind (sure_writeStatus w₁ _ _) fun written w₂ _ => ?_
      obtain ⟨written, changed⟩ := written
      cases changed with
      | false =>
          exact Program.sure_bind (Task.sure_announce w₂ _ _) fun _ _ _ => Program.sure_pure
      | true =>
          exact Program.sure_bind (sure_saveStatus w₂ _) fun _ w₃ _ =>
            Program.sure_bind (Task.sure_announce w₃ _ _) fun _ _ _ => Program.sure_pure

/-- As long as no call fails, updating stops only where the release cannot be read. -/
theorem update_stops {rel : Release} {r : Except Fault Unit} (hpause : c.pause ≠ .paused)
    (hrel : w.backend.current? (releaseKey c c.releaseName) = some rel)
    (h : (update c).Ends serving w r w') :
    r = .ok () ∨ ((¬∃ found, Manifest.decode .outline rel.manifest = .ok found) ∧
      Same .records w w' ∧ Same .releases w w') := by
  rw [update_of_not_paused hpause] at h
  obtain ⟨package, w₁, hpackage, h₁⟩ := (sure_findPackage w c).ends_bind h
  obtain ⟨current, w₂, hfind, h₂⟩ := (sure_findRelease w₁ c _).ends_bind h₁
  replace hpackage := troubled_of_serving hpackage
  replace hfind := troubled_of_serving hfind
  have hbefore (x : Holding) : Same x w w₂ :=
    ((leaves_findPackage x _).same hpackage).trans ((leaves_findRelease x _ _).same hfind)
  have hcurrent := findRelease_ok hfind
  rw [((leaves_findPackage _ _).same hpackage).current?, hrel] at hcurrent
  subst hcurrent
  rcases Program.ends_bind.mp h₂ with ⟨fault, hdescribe, -⟩ | ⟨described, w₃, -, hrest⟩
  · have hlater (x : Holding) : Same x w₂ w' :=
      (leaves_describe x _).same (troubled_of_serving hdescribe)
    exact Or.inr ⟨illegible_of_describe hdescribe, (hbefore _).trans (hlater _),
      (hbefore _).trans (hlater _)⟩
  · left
    obtain ⟨_, w₄, -, h₄⟩ := (Task.sure_announce w₃ _ _).ends_bind hrest
    obtain ⟨written, w₅, -, h₅⟩ := (sure_writeStatus w₄ _ _).ends_bind h₄
    obtain ⟨record, w₆, -, h₆⟩ := (sure_saveStatus w₅ _).ends_bind h₅
    obtain ⟨_, hr⟩ := sure_settle w₆ record _ h₆
    exact hr

/-! ## Passes -/

/-- A pass over a record that is not marked for deletion observes it, and goes on from what it
found. -/
theorem reconcile_of_not_deleting (h : c.isDeleting = false) :
    k.reconcile c = (do
      let observation ← k.observe c
      if !observation.found then
        k.create c
        return .created
      else if !observation.upToDate then
        update c
        return .updated
      else return .upToDate) := by
  unfold reconcile Client.reconcile
  rw [h]
  rfl

end Chartkeeper.Controller
