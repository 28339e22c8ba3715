import Chartkeeper.Proofs.Control.Calm
import Chartkeeper.Proofs.Control.Creation
/-!
# A creation that stopped can be done again

A creation may stop at any of its calls, after it has named the record, applied some of the
permissions, made the release, or even written the status. What it leaves behind is not undone; the
next creation finds it and goes on from there.

- `Completed`: how a creation ends when no call is made to fail, read off the world and the record
  before it. There is one way, up to the times in the record and the revision of the release.
- `Begun`: what a creation leaves behind wherever it stops, and what the record as it is stored then
  has in common with the one before.
- `Completed.of_begun`: to complete what was begun is to complete it from the beginning.
- `agree_of_create_again`: so a creation that is done again comes to what it would have come to
  without the failure.
-/

namespace Chartkeeper

/-- What a record says, whenever it said it. -/
def Composition.untimed (c : Composition) : Composition :=
  { c with status := c.status.untimed }

namespace Controller

open World Chartkeeper.Composition

variable {k : Controller} {w w' w'' : World} {c d : Composition} {r : Except Fault Unit}
  {managed : List ManagedResource} {digest : String}

/-! ## The named record -/

/-- The record with its release name, as creating stores it first. -/
def named (c : Composition) : Composition :=
  (c.setReleaseName c.releaseName).1

theorem alike_named (c : Composition) : Alike c (named c) := alike_setReleaseName c

theorem status_named (c : Composition) : (named c).status = c.status :=
  status_setReleaseName c c.releaseName

theorem named_eq (c : Composition) : named c = { named c with status := c.status } := by
  rw [← status_named c]

theorem get?_named (c : Composition) :
    (named c).metadata.labels.get? releaseNameLabel = some c.releaseName :=
  get?_setLabel_self c _ _

theorem named_of_get? (h : c.metadata.labels.get? releaseNameLabel = some c.releaseName) :
    named c = c := by
  unfold named setReleaseName setLabel
  rw [if_pos h]

/-- A named record is not named again, whatever its status. -/
theorem named_named (c : Composition) : named (named c) = named c := by
  refine named_of_get? ?_
  rw [(alike_named c).releaseName]
  exact get?_named c

theorem named_status (h : named c = c) (status : Status) :
    named { c with status } = { c with status } := by
  refine named_of_get? ?_
  rw [(alike_status c status).releaseName, ← get?_named c, h]

/-- What creating stores last is the named record, but for its status and the note of a pause. -/
theorem installed_eq (c : Composition) (package : Package) (managed : List ManagedResource)
    (digest : String) (now : Instant) :
    installed c package managed digest now = { (named c).removePauseTime.1 with
      status := (c.status.apply (createWrite package managed digest) now).1 } := rfl

/-! ## How a creation ends -/

/-- How a creation ends that no call was made to fail in. All permissions are applied. The release
is made unless it cannot be put together, and the record describes it unless it cannot be
described; only then the creation succeeds. -/
structure Completed (k : Controller) (c : Composition) (w : World) (r : Except Fault Unit)
    (w' : World) : Prop where
  permissions : w'.cluster.objects = Cluster.grant (k.granted w c) w.cluster.objects
  release :
    (∃ rel, k.Fits w c rel ∧
        w'.backend.current? (releaseKey c c.releaseName) = some rel) ∨
      (∀ rel, ¬k.Fits w c rel) ∧ w'.backend.current? (releaseKey c c.releaseName) =
        w.backend.current? (releaseKey c c.releaseName)
  record :
    (r = .ok () ∧ ∃ managed digest now, k.Finds w c managed digest ∧
        w'.Stores (installed c w.package managed digest now)) ∨
      (∃ fault, r = .error fault) ∧ (∀ managed digest, ¬k.Finds w c managed digest) ∧
        w'.Stores (named c)

theorem completed_of_make (hcalm : w.Calm) (hc : w.Stores c) (hnamed : named c = c)
    (h : (k.make c.releaseName c w.package >>= recordCreated c w.package).Ends answers w r w') :
    Completed k c w r w' := by
  rcases Program.ends_bind.mp h with ⟨fault, hmake, rfl⟩ | ⟨rel, w₁, hmake, hrecord⟩
  -- In a calm world, a release that is not made cannot be put together.
  · have hunfit (rel : Release) : ¬k.Fits w c rel := by
      intro hfits
      obtain ⟨_, hok⟩ := sure_make_of_calm hcalm hfits hmake
      exact nomatch hok
    refine ⟨granted_of_make hcalm hmake, Or.inr ⟨hunfit, ?_⟩, Or.inr ⟨⟨fault, rfl⟩, ?_, ?_⟩⟩
    · exact (make_error (troubled_of_answers hmake)).current? _
    · rintro managed digest ⟨rel, hfits, -⟩
      exact hunfit rel hfits
    · rw [hnamed]
      exact ((leaves_make (by decide) (by decide) k _ c _).same
        (troubled_of_answers hmake)).stores hc
  · obtain ⟨hfits, hcurrent⟩ := make_ok rfl (troubled_of_answers hmake)
    have hw₁ := surroundings_ends (troubled_of_answers hmake)
    have hc₁ : w₁.Stores c := ((leaves_make (by decide) (by decide) k _ c _).same
      (troubled_of_answers hmake)).stores hc
    have hpermissions : Same .permissions w₁ w' :=
      (leaves_recordCreated (by decide) c w.package rel).same (troubled_of_answers hrecord)
    have hreleases : Same .releases w₁ w' :=
      (leaves_recordCreated (by decide) c w.package rel).same (troubled_of_answers hrecord)
    refine ⟨Eq.trans hpermissions (granted_of_make hcalm hmake), Or.inl ⟨rel, hfits, ?_⟩, ?_⟩
    · rw [hreleases.current?]
      exact hcurrent
    · rcases recordCreated_of_calm (calm_ends hcalm hmake) hc₁ hrecord with
        rfl | ⟨hfault, hnone, hsame⟩
      · obtain ⟨managed, digest, now, hdescribed, hstored⟩ :=
          recordCreated_ok hc₁ rfl (troubled_of_answers hrecord)
        refine Or.inl ⟨rfl, managed, digest, now, ⟨rel, hfits, hdescribed.congr hw₁.symm⟩, ?_⟩
        rw [installed_eq, hnamed]
        exact hstored
      · refine Or.inr ⟨hfault, ?_, ?_⟩
        · rintro managed digest ⟨rel', hfits', hdescribed⟩
          exact hnone managed digest ((hdescribed.of_fits hfits' hfits).congr hw₁)
        · rw [hnamed]
          exact hsame.stores hc₁

/-! ## What a creation leaves behind -/

/-- What a creation leaves behind wherever it stops: the record as it is stored then differs from
the one before in its name and in the status that is due to it, the first of its permissions were
applied, and its release is as it was or as it is to be. -/
structure Begun (k : Controller) (c : Composition) (w w' : World) (d : Composition) : Prop where
  stored : w'.Stores d
  alike : Alike c d
  surroundings : w'.surroundings = w.surroundings
  naming : named d = { named c with status := d.status }
  status : d.status = c.status ∨ ∃ managed digest now, k.Finds w c managed digest ∧
    d.status = (c.status.apply (createWrite w.package managed digest) now).1
  permissions : ∃ applied, applied <+: k.granted w c ∧
    w'.cluster.objects = Cluster.grant applied w.cluster.objects
  release : w'.backend.current? (releaseKey c c.releaseName) =
      w.backend.current? (releaseKey c c.releaseName) ∨
    ∃ rel, k.Fits w c rel ∧ w'.backend.current? (releaseKey c c.releaseName) = some rel

/-- Nothing is left behind by a creation that has not begun. -/
theorem Begun.of_same (hc : w.Stores c) (hw : w'.surroundings = w.surroundings)
    (h : ∀ x, Same x w w') : Begun k c w w' c where
  stored := (h .records).stores hc
  alike := Alike.refl c
  surroundings := hw
  naming := named_eq c
  status := Or.inl rfl
  permissions := ⟨[], List.nil_prefix, h .permissions⟩
  release := Or.inl ((h .releases).current? _)

/-- What was begun does not depend on the outages. -/
theorem Begun.under {o o' : Outages} (h : Begun k c w w' d) :
    Begun k c (w.under o) (w'.under o') d :=
  ⟨h.stored, h.alike, h.surroundings, h.naming, h.status, h.permissions, h.release⟩

/-- **To complete what was begun** is to complete it from the beginning. -/
theorem Completed.of_begun (hbegun : Begun k c w w' d) (h : Completed k d w' r w'') :
    Completed k c w r w'' := by
  have hw := hbegun.surroundings
  have halike := hbegun.alike
  have hgranted : k.granted w' d = k.granted w c := granted_congr hw halike
  have hkey : releaseKey d d.releaseName = releaseKey c c.releaseName := by
    rw [releaseKey_eq_of_alike halike, halike.releaseName]
  have hpackage : w'.package = w.package := congrArg Surroundings.package hw
  refine ⟨?_, ?_, ?_⟩
  · obtain ⟨applied, hprefix, hobjects⟩ := hbegun.permissions
    rw [h.permissions, hgranted, hobjects, Cluster.grant_of_isPrefix hprefix]
  · rw [← hkey]
    -- Whether the release can be put together is the same question in both worlds.
    rcases h.release with ⟨rel, hfits, hcurrent⟩ | ⟨hunfit, hcurrent⟩
    · exact Or.inl ⟨rel, hfits.congr hw.symm halike.symm, hcurrent⟩
    · have hunfit' (rel : Release) : ¬k.Fits w c rel :=
        fun hfits => hunfit rel (hfits.congr hw halike)
      refine Or.inr ⟨hunfit', hcurrent.trans ?_⟩
      rw [hkey]
      rcases hbegun.release with hkept | ⟨rel, hfits, -⟩
      · exact hkept
      · exact absurd hfits (hunfit' rel)
  · rcases h.record with ⟨hr, managed, digest, now, hfound, hstored⟩ | ⟨hfault, hnone, hstored⟩
    · refine Or.inl ⟨hr, managed, digest, ?_⟩
      replace hfound := hfound.congr hw.symm halike.symm
      rw [installed_eq, hbegun.naming, hpackage] at hstored
      rcases hbegun.status with hkept | ⟨managed', digest', earlier, hfound', hwritten⟩
      · rw [hkept] at hstored
        exact ⟨now, hfound, hstored⟩
      · -- The status had been written already, so it was not changed again.
        obtain ⟨rfl, rfl⟩ := hfound.eq hfound'
        rw [hwritten, Status.apply_again] at hstored
        exact ⟨earlier, hfound, hstored⟩
    · have hnone' (managed : List ManagedResource) (digest : String) :
          ¬k.Finds w c managed digest :=
        fun hfound => hnone managed digest (hfound.congr hw halike)
      refine Or.inr ⟨hfault, hnone', ?_⟩
      rcases hbegun.status with hkept | ⟨managed, digest, _, hfound, -⟩
      · rw [hbegun.naming, hkept, ← named_eq] at hstored
        exact hstored
      · exact absurd hfound (hnone' managed digest)

/-- To have named the record first makes no difference. -/
theorem Begun.of_named {w₁ : World} (h : Begun k (named c) w₁ w' d)
    (hw : w₁.surroundings = w.surroundings) (hpermissions : Same .permissions w w₁)
    (hreleases : Same .releases w w₁) : Begun k c w w' d := by
  have halike := alike_named c
  have hkey : releaseKey (named c) (named c).releaseName = releaseKey c c.releaseName := by
    rw [releaseKey_eq_of_alike halike, halike.releaseName]
  refine ⟨h.stored, halike.trans h.alike, h.surroundings.trans hw, ?_, ?_, ?_, ?_⟩
  · rw [h.naming, named_named]
  · rw [← status_named c, show w.package = w₁.package from (congrArg Surroundings.package hw).symm]
    refine h.status.imp_right ?_
    rintro ⟨managed, digest, now, hfound, hwritten⟩
    exact ⟨managed, digest, now, hfound.congr hw.symm halike.symm, hwritten⟩
  · obtain ⟨applied, hprefix, hobjects⟩ := h.permissions
    rw [granted_congr hw halike] at hprefix
    rw [show w₁.cluster.objects = w.cluster.objects from hpermissions] at hobjects
    exact ⟨applied, hprefix, hobjects⟩
  · rw [← hkey, ← hreleases.current?]
    refine h.release.imp_right ?_
    rintro ⟨rel, hfits, hcurrent⟩
    exact ⟨rel, hfits.congr hw.symm halike.symm, hcurrent⟩

theorem begun_of_make {fault : Fault} (hc : w.Stores c) (hnamed : named c = c)
    (h : (k.make c.releaseName c w.package >>= recordCreated c w.package).Ends troubled w
      (.error fault) w') : ∃ d, Begun k c w w' d := by
  have hw := surroundings_ends h
  rcases Program.ends_bind.mp h with ⟨_, hmake, -⟩ | ⟨rel, w₁, hmake, hrecord⟩
  · obtain ⟨applied, hprefix, hobjects, -⟩ := granting_make hmake
    have hstored : w'.Stores c :=
      ((leaves_make (by decide) (by decide) _ _ _ _).same hmake).stores hc
    exact ⟨c, hstored, Alike.refl c, hw, named_eq c, Or.inl rfl, ⟨applied, hprefix, hobjects⟩,
      Or.inl ((make_error hmake).current? _)⟩
  · obtain ⟨applied, hprefix, hobjects, -⟩ := granting_make hmake
    obtain ⟨hfits, hcurrent⟩ := make_ok rfl hmake
    have hc₁ : w₁.Stores c := ((leaves_make (by decide) (by decide) _ _ _ _).same hmake).stores hc
    have hpermissions : Same .permissions w₁ w' :=
      (leaves_recordCreated (by decide) _ _ _).same hrecord
    have hreleases : Same .releases w₁ w' := (leaves_recordCreated (by decide) _ _ _).same hrecord
    obtain ⟨status, hstored, hstatus⟩ := recordCreated_error hc₁ hrecord
    refine ⟨_, hstored, alike_status c status, hw, ?_, ?_, ⟨applied, hprefix, ?_⟩,
      Or.inr ⟨rel, hfits, ?_⟩⟩
    · rw [named_status hnamed, hnamed]
    · refine hstatus.imp_right ?_
      rintro ⟨managed, digest, now, hdescribed, hwritten⟩
      have hfound : k.Finds w c managed digest :=
        ⟨rel, hfits, hdescribed.congr (surroundings_ends hmake).symm⟩
      exact ⟨managed, digest, now, hfound, hwritten⟩
    · exact Eq.trans hpermissions hobjects
    · rw [hreleases.current?]
      exact hcurrent

/-- Up to the making of the release, creating does nothing but to name the record. -/
theorem named_of_createNamed {w₁ w₂ : World} {record : Composition} {package : Package}
    (hc : w.Stores c)
    (hsave : (saveIf (c.setReleaseName c.releaseName).2
      (c.setReleaseName c.releaseName).1).Ends troubled w (.ok record) w₁)
    (hpackage : (findPackage record).Ends troubled w₁ (.ok package) w₂) :
    record = named c ∧ package = w₂.package ∧ w₂.Stores (named c) ∧
      w₂.surroundings = w.surroundings ∧ ∀ x, x ≠ Holding.records → Same x w w₂ := by
  obtain ⟨hrecord, hstored₁⟩ := saveNamed_stored hc hsave
  have hw₂ := surroundings_ends hpackage
  refine ⟨hrecord, ?_, ?_, hw₂.trans (surroundings_ends hsave), fun x hx => ?_⟩
  · exact (findPackage_ok hpackage).trans (congrArg Surroundings.package hw₂).symm
  · rw [hrecord] at hstored₁
    exact ((leaves_findPackage _ _).same hpackage).stores hstored₁
  · exact ((leaves_saveIf hx _ _).same hsave).trans ((leaves_findPackage x _).same hpackage)

/-- **Wherever a creation stops**, it has begun. -/
theorem begun_of_create {fault : Fault} (hc : w.Stores c) (hpause : c.pause ≠ .paused)
    (h : (k.create c).Ends troubled w (.error fault) w') : ∃ d, Begun k c w w' d := by
  rw [create_of_not_paused hpause] at h
  rcases Program.ends_bind.mp h with ⟨_, hsave, -⟩ | ⟨record, w₁, hsave, h₁⟩
  · refine ⟨c, Begun.of_same hc (surroundings_ends hsave) fun x => ?_⟩
    cases x with
    | records => exact saveIf_error hsave
    | releases => exact (leaves_saveIf (by decide) _ _).same hsave
    | permissions => exact (leaves_saveIf (by decide) _ _).same hsave
  rcases Program.ends_bind.mp h₁ with ⟨_, hpackage, -⟩ | ⟨package, w₂, hpackage, h₂⟩
  · obtain ⟨hrecord, hstored₁⟩ := saveNamed_stored hc hsave
    rw [hrecord] at hstored₁
    have hbegun : Begun k (named c) w₁ w' (named c) :=
      Begun.of_same hstored₁ (surroundings_ends hpackage)
        fun x => (leaves_findPackage x _).same hpackage
    exact ⟨_, hbegun.of_named (surroundings_ends hsave)
      ((leaves_saveIf (by decide) _ _).same hsave) ((leaves_saveIf (by decide) _ _).same hsave)⟩
  · obtain ⟨rfl, rfl, hstored, hw, hsame⟩ := named_of_createNamed hc hsave hpackage
    rw [← (alike_named c).releaseName] at h₂
    obtain ⟨d, hbegun⟩ := begun_of_make hstored (named_named c) h₂
    exact ⟨d, hbegun.of_named hw (hsame _ (by decide)) (hsame _ (by decide))⟩

/-! ## Doing it again -/

theorem completed_of_create (hcalm : w.Calm) (hc : w.Stores c) (hpause : c.pause ≠ .paused)
    (h : (k.create c).Ends answers w r w') : Completed k c w r w' := by
  rw [create_of_not_paused hpause] at h
  obtain ⟨record, w₁, hsave, h₁⟩ :=
    (sure_of_calm (ready_saveIf _ _) hcalm (sure_saveIf w _ _)).ends_bind h
  have hcalm₁ := calm_ends hcalm hsave
  obtain ⟨package, w₂, hpackage, h₂⟩ :=
    (sure_of_calm (ready_findPackage _) hcalm₁ (sure_findPackage w₁ _)).ends_bind h₁
  have hcalm₂ := calm_ends hcalm₁ hpackage
  obtain ⟨rfl, rfl, hstored, hw, hsame⟩ :=
    named_of_createNamed hc (troubled_of_answers hsave) (troubled_of_answers hpackage)
  rw [← (alike_named c).releaseName] at h₂
  have hcompleted := completed_of_make hcalm₂ hstored (named_named c) h₂
  -- Naming the record is all that has begun by now.
  have hbegun : Begun k (named c) w₂ w₂ (named c) :=
    Begun.of_same hstored rfl fun x => same_refl x w₂
  exact hcompleted.of_begun (hbegun.of_named hw (hsame _ (by decide)) (hsame _ (by decide)))

/-- Two worlds to which the creation of a record has come that agree in everything but the times in
the record and the revision of the release. -/
structure Agree (c : Composition) (w w' : World) : Prop where
  record : ∃ d d', w.store.get? c.key = some d ∧ w'.store.get? c.key = some d' ∧
    d'.untimed = d.untimed
  release : (w'.backend.current? (releaseKey c c.releaseName)).map Release.unnumbered =
    (w.backend.current? (releaseKey c c.releaseName)).map Release.unnumbered
  permissions : w'.cluster.objects = w.cluster.objects

/-- There is one way to complete a creation. -/
theorem Completed.agree {r' : Except Fault Unit} (h : Completed k c w r w')
    (h' : Completed k c w r' w'') : (r' = .ok () ↔ r = .ok ()) ∧ Agree c w' w'' := by
  have hkey : (named c).key = c.key := (alike_named c).key
  have hstores {d : Composition} {v : World} (hd : v.Stores d) (hdc : d.key = c.key) :
      v.store.get? c.key = some d := hdc ▸ hd
  have hrelease : (w''.backend.current? (releaseKey c c.releaseName)).map Release.unnumbered =
      (w'.backend.current? (releaseKey c c.releaseName)).map Release.unnumbered := by
    rcases h.release with ⟨rel, hfits, hcurrent⟩ | ⟨hunfit, hcurrent⟩
    · rcases h'.release with ⟨rel', hfits', hcurrent'⟩ | ⟨hunfit', -⟩
      · rw [hcurrent, hcurrent', Option.map_some, Option.map_some, hfits.unnumbered hfits']
      · exact absurd hfits (hunfit' rel)
    · rcases h'.release with ⟨rel', hfits', -⟩ | ⟨-, hcurrent'⟩
      · exact absurd hfits' (hunfit rel')
      · rw [hcurrent, hcurrent']
  have hpermissions := h'.permissions.trans h.permissions.symm
  rcases h.record with ⟨hr, managed, digest, now, hfound, hd⟩ | ⟨⟨fault, hr⟩, hnone, hd⟩
  · rcases h'.record with ⟨hr', managed', digest', later, hfound', hd'⟩ | ⟨-, hnone', -⟩
    · obtain ⟨rfl, rfl⟩ := hfound.eq hfound'
      refine ⟨⟨fun _ => hr, fun _ => hr'⟩, ⟨_, _, hstores hd hkey, hstores hd' hkey, ?_⟩, hrelease,
        hpermissions⟩
      unfold Composition.untimed
      rw [installed_eq, installed_eq]
      dsimp only
      rw [Status.untimed_apply c.status _ now later]
    · exact absurd hfound (hnone' managed digest)
  · rcases h'.record with ⟨-, managed', digest', -, hfound', -⟩ | ⟨⟨fault', hr'⟩, -, hd'⟩
    · exact absurd hfound' (hnone managed' digest')
    · refine ⟨?_, ⟨_, _, hstores hd hkey, hstores hd' hkey, rfl⟩, hrelease, hpermissions⟩
      rw [hr, hr']
      exact ⟨nofun, nofun⟩

/-- **A creation can be done again.** Wherever it stopped, doing it again over the record as it is
stored then comes to the same as doing it once from the beginning, if nothing is made to fail: the
one succeeds exactly if the other does, and the worlds agree. Where it succeeds, the release is
deployed as the record asks for. -/
theorem agree_of_create_again {fault : Fault} (hstored : w.store.get? c.key = some c)
    (hpause : c.pause ≠ .paused) (h : (k.create c).Ends troubled w (.error fault) w') :
    ∃ d, w'.store.get? c.key = some d ∧
      let once := (w.under .calm).run none (k.create c)
      let again := (w'.under .calm).run none (k.create d)
      (again.result = .ok () ↔ once.result = .ok ()) ∧ Agree c once.state again.state ∧
      (again.result = .ok () → ∃ r, again.state.backend.current? (releaseKey c c.releaseName) =
        some r ∧ k.Fits w c r ∧ r.status = .deployed) := by
  obtain ⟨d, hbegun⟩ := begun_of_create hstored hpause h
  have hd : w'.store.get? c.key = some d := hbegun.alike.key ▸ hbegun.stored
  have hpause' : d.pause ≠ .paused := by
    rw [hbegun.alike.pause]
    exact hpause
  refine ⟨d, hd, ?_⟩
  intro once again
  have honce : Completed k c (w.under .calm) once.result once.state :=
    completed_of_create (calm_under w) hstored hpause (Program.ends_run _ _ 0)
  have hagain : Completed k d (w'.under .calm) again.result again.state :=
    completed_of_create (calm_under w') hbegun.stored hpause' (Program.ends_run _ _ 0)
  -- The second attempt, seen from the first world.
  have hwhole : Completed k c (w.under .calm) again.result again.state :=
    hagain.of_begun hbegun.under
  obtain ⟨hresult, hagree⟩ := honce.agree hwhole
  refine ⟨hresult, hagree, fun hok => ?_⟩
  rcases hwhole.release with ⟨rel, hfits, hcurrent⟩ | ⟨hunfit, -⟩
  · exact ⟨rel, hcurrent, hfits.congr rfl (Alike.refl c), hfits.status⟩
  · rcases hwhole.record with ⟨-, _, _, _, ⟨rel, hfits, -⟩, -⟩ | ⟨⟨_, hfault⟩, -⟩
    · exact absurd hfits (hunfit rel)
    · exact nomatch hok.symm.trans hfault

/-- A world under some outages, where a record is to be created. -/
def hindered (o : Outages) : World :=
  (World.sample "" .sample).under o

/-- The creation that these outages may stop. -/
def attempt (o : Outages) : Run Port World Unit :=
  (hindered o).run none (Controller.sample.create .sample)

/-- A creation that could not install the release had named the record and applied all permissions;
done again, it succeeds. -/
theorem agree_of_create_again_uninstallable :
    let w := hindered .uninstallable
    w.store.get? Composition.sample.key = some .sample ∧
      (∃ fault, (attempt .uninstallable).result = .error fault) ∧
      (attempt .uninstallable).state.cluster.objects.length = 4 ∧
      ∃ d, (attempt .uninstallable).state.store.get? Composition.sample.key = some d ∧
        let once := (w.under .calm).run none (Controller.sample.create .sample)
        let again := ((attempt .uninstallable).state.under .calm).run none
          (Controller.sample.create d)
        again.result = .ok () ∧ Agree .sample once.state again.state := by
  have hfails : (attempt .uninstallable).result.toOption = none := by decide +kernel
  have hgranted : (attempt .uninstallable).state.cluster.objects.length = 4 := by decide +kernel
  have honce : (((hindered .uninstallable).under .calm).run none
      (Controller.sample.create .sample)).result = .ok () :=
    Fault.eq_ok_of_toOption (by decide +kernel)
  -- The outages become a variable before the theorem is applied, so that no run is evaluated then.
  generalize Outages.uninstallable = o at hfails hgranted honce ⊢
  have hstored : (hindered o).store.get? Composition.sample.key = some .sample :=
    sample_stores "" .sample
  have hends := Program.ends_run (m := machine) (Controller.sample.create .sample) (hindered o) 0
  cases hresult : (attempt o).result with
  | ok _ =>
      rw [hresult] at hfails
      exact nomatch hfails
  | error fault =>
      have herror : (Controller.sample.create .sample).Ends troubled (hindered o) (.error fault)
          (attempt o).state := by
        rw [← hresult]
        exact troubled_of_answers hends
      obtain ⟨d, hd, hresults, hagree, -⟩ := agree_of_create_again hstored (by decide) herror
      exact ⟨hstored, ⟨fault, rfl⟩, hgranted, d, hd, hresults.mpr honce, hagree⟩

end Controller

end Chartkeeper
