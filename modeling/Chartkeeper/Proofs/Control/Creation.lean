import Chartkeeper.Proofs.Control.Changes
/-!
# What a creation records

A creation that ends well writes down in one go what it installed.

- `create_stored`: the record as it is stored then, field by field.
- `status_of_create`: whatever the status said before, it carries the digest of the release and the
  chart that it came from, and says that the record is ready. The managed resources are those of the
  release, unless there are none while some were listed before: an empty list is not written.
-/

namespace Chartkeeper.Controller

open World Chartkeeper.Composition

variable {k : Controller} {w w' : World} {c d : Composition} {r : Release}
  {managed : List ManagedResource} {digest : String}

/-! ## The record of an installed release -/

/-- The record as creating stores it. -/
def installed (c : Composition) (package : Package) (managed : List ManagedResource)
    (digest : String) (now : Instant) : Composition :=
  { (c.setReleaseName c.releaseName).1.removePauseTime.1 with
    status := (c.status.apply (createWrite package managed digest) now).1 }

theorem alike_installed (hpause : c.pause ≠ .paused) (package : Package)
    (managed : List ManagedResource) (digest : String) (now : Instant) :
    Alike c (installed c package managed digest now) := by
  have hnamed := alike_setReleaseName c
  have hpause' : (c.setReleaseName c.releaseName).1.pause ≠ .paused := by
    rw [hnamed.pause]
    exact hpause
  exact (hnamed.trans (alike_removePauseTime hpause')).trans (alike_status _ _)

/-- Naming the stored record stores the named one. -/
theorem saveNamed_stored {record : Composition} (hc : w.Stores c)
    (h : (saveIf (c.setReleaseName c.releaseName).2
      (c.setReleaseName c.releaseName).1).Ends troubled w (.ok record) w') :
    record = (c.setReleaseName c.releaseName).1 ∧ w'.Stores record := by
  have hnamed := alike_setReleaseName c
  obtain ⟨rfl, hstored⟩ := saveIf_ok hc eq_of_setReleaseName hnamed.key
    ⟨hnamed.apiVersion, hnamed.kind⟩ (status_setReleaseName c _) h
  exact ⟨rfl, hstored⟩

theorem create_stored (hc : w.Stores c) (hpause : c.pause ≠ .paused)
    (h : (k.create c).Ends troubled w (.ok ()) w') :
    ∃ r managed digest now, k.Fits w c r ∧ Describes w r managed digest ∧
      w'.backend.current? (releaseKey c c.releaseName) = some r ∧
      w'.Stores (installed c w.package managed digest now) := by
  rw [create_of_not_paused hpause] at h
  obtain ⟨record, w₁, hsave, h₁⟩ := Program.ends_bind_ok.mp h
  obtain ⟨hrecord, hstored₁⟩ := saveNamed_stored hc hsave
  have hnamed : Alike c record := hrecord ▸ alike_setReleaseName c
  have hstatus : record.status = c.status := hrecord ▸ status_setReleaseName c c.releaseName
  have hw := surroundings_ends hsave
  obtain ⟨r, managed, digest, now, hfits, hdescribed, hcurrent, hstored⟩ :=
    createNamed_ok hstored₁ (Alike.refl record) hnamed.releaseName h₁
  rw [hnamed.releaseName, releaseKey_eq_of_alike hnamed] at hcurrent
  rw [show w₁.package = w.package from congrArg Surroundings.package hw, hstatus] at hstored
  refine ⟨r, managed, digest, now, hfits.congr hw.symm hnamed.symm, hdescribed.congr hw.symm,
    hcurrent, ?_⟩
  rw [hrecord] at hstored
  exact hstored

/-! ## What the record says then -/

/-- What is recorded of a release that was created: all but the managed resources. -/
structure Recorded (w : World) (c : Composition) (r : Release) (d : Composition) : Prop where
  digest : d.status.digest = Digest.ofManifest r.manifest
  previousDigest : d.status.previousDigest = ""
  chartUrl : d.status.chartUrl = w.package.url
  chartVersion : d.status.chartVersion = w.package.version
  ready : ∃ since, d.status.condition? Condition.readyType =
    some (.available "Composition created" since)
  releaseName : d.metadata.labels.get? releaseNameLabel = some c.releaseName
  pauseTime : c.metadata.annotations.keys.Nodup →
    d.metadata.annotations.get? pauseTimeAnnotation = none

theorem recorded_installed (hdescribed : Describes w r managed digest) (now : Instant) :
    Recorded w c r (installed c w.package managed digest now) where
  digest := (Status.digest_apply _ _ _).trans hdescribed.1
  previousDigest := Status.previousDigest_apply _ _ _
  chartUrl := Status.chartUrl_apply _ _ _
  chartVersion := Status.chartVersion_apply _ _ _
  ready := Status.condition?_apply_of_force _ _ _ rfl
  releaseName := get?_setLabel_self c _ _
  pauseTime hnodup := by
    refine Table.get?_erase_self ?_
    unfold setReleaseName
    rw [annotations_setLabel]
    exact hnodup

theorem managed_installed (c : Composition) (package : Package) (managed : List ManagedResource)
    (digest : String) (now : Instant) :
    (installed c package managed digest now).status.managed =
      if managed = [] then c.status.managed else managed := by
  unfold installed
  rw [Status.managed_apply]
  simp only [createWrite, StatusWrite.withChart, StatusWrite.withDigests, StatusWrite.withManaged,
    List.isEmpty_iff]

/-- **What a creation records.** The current release is the one that the record asks for, and the
stored record says so. Its managed resources are those of the release exactly if there are any, or
none were listed before. -/
theorem status_of_create {deadline : Option Nat} (hstored : w.store.get? c.key = some c)
    (hpause : c.pause ≠ .paused) (h : (w.run deadline (k.create c)).result = .ok ()) :
    ∃ d r managed,
      (w.run deadline (k.create c)).state.store.get? c.key = some d ∧
      (w.run deadline (k.create c)).state.backend.current?
        (releaseKey c c.releaseName) = some r ∧
      k.Fits w c r ∧ Describes w r managed d.status.digest ∧ Recorded w c r d ∧
      d.status.managed = (if managed = [] then c.status.managed else managed) ∧
      (Describes w r d.status.managed d.status.digest ↔
        managed ≠ [] ∨ c.status.managed = []) := by
  have hends := troubled_of_answers (Program.ends_of_run_ok h)
  obtain ⟨r, managed, digest, now, hfits, hdescribed, hcurrent, hd⟩ :=
    create_stored hstored hpause hends
  have hrecorded := recorded_installed (c := c) hdescribed now
  have hmanaged := managed_installed c w.package managed digest now
  have hkey : (installed c w.package managed digest now).key = c.key :=
    (alike_setReleaseName c).key
  -- Which record it is does not matter from here on.
  generalize installed c w.package managed digest now = d at hd hrecorded hmanaged hkey
  unfold Stores at hd
  rw [hkey] at hd
  have hdigest : d.status.digest = digest := hrecorded.digest.trans hdescribed.1.symm
  refine ⟨d, r, managed, hd, hcurrent, hfits, ?_, hrecorded, hmanaged, ?_⟩
  · rw [hdigest]
    exact hdescribed
  · rw [hdigest]
    constructor
    · intro hlisted
      have hsame := (hdescribed.eq hlisted).1
      by_cases hnone : managed = []
      · right
        rw [hmanaged, if_pos hnone] at hsame
        rw [hsame, hnone]
      · exact Or.inl hnone
    · intro hcases
      have hsame : d.status.managed = managed := by
        rw [hmanaged]
        by_cases hnone : managed = []
        · rw [if_pos hnone, hnone]
          exact hcases.resolve_left (fun hsome => hsome hnone)
        · rw [if_neg hnone]
      rw [hsame]
      exact hdescribed

/-- A record whose release was described once and is gone now. -/
def bereft (managed : List ManagedResource) : Composition :=
  { Composition.sample with
    status := ⟨"1f616796b4505e74", "e3b0c44298fc1c14", "chart", "0.9.0", managed, []⟩ }

/-- What the status said before is forgotten. -/
theorem status_of_create_bereft :
    let w := World.sample "" (bereft [])
    w.store.get? (bereft []).key = some (bereft []) ∧
      (w.run none (Controller.sample.create (bereft []))).result = .ok () ∧
      ∃ d r, (w.run none (Controller.sample.create (bereft []))).state.store.get?
          (bereft []).key = some d ∧
        Describes w r d.status.managed d.status.digest ∧ d.status.previousDigest = "" := by
  intro w
  have hstored : w.store.get? (bereft []).key = some (bereft []) := sample_stores "" (bereft [])
  have h : (w.run none (Controller.sample.create (bereft []))).result = .ok () :=
    Fault.eq_ok_of_toOption (by decide +kernel)
  obtain ⟨d, r, managed, hd, -, -, -, hrecorded, -, hlisted⟩ :=
    status_of_create hstored (by decide) h
  exact ⟨hstored, h, d, r, hd, hlisted.mpr (Or.inr rfl), hrecorded.previousDigest⟩

/-- The managed resource of an earlier release. -/
def earlier : ManagedResource := ⟨"v1", "configmaps", "shop", "apps", "configmaps/shop"⟩

/-- **A list outlives what it lists.** The release that is created here renders nothing, but the
record still lists the resource of the one before. -/
theorem managed_kept_of_create :
    let w := World.sample "" (bereft [earlier])
    w.store.get? (bereft [earlier]).key = some (bereft [earlier]) ∧
      (bereft [earlier]).pause ≠ .paused ∧
      (w.run none (Controller.sample.create (bereft [earlier]))).result = .ok () ∧
      ∃ d r, (w.run none (Controller.sample.create (bereft [earlier]))).state.store.get?
          (bereft [earlier]).key = some d ∧
        (w.run none (Controller.sample.create (bereft [earlier]))).state.backend.current?
          ⟨"apps", "shop"⟩ = some r ∧
        Describes w r [] (Digest.ofManifest r.manifest) ∧ d.status.managed = [earlier] := by
  intro w
  have hstored : w.store.get? (bereft [earlier]).key = some (bereft [earlier]) :=
    sample_stores "" (bereft [earlier])
  have h : (w.run none (Controller.sample.create (bereft [earlier]))).result = .ok () :=
    Fault.eq_ok_of_toOption (by decide +kernel)
  have hmanaged : ((w.run none (Controller.sample.create (bereft [earlier]))).state.store.get?
      (bereft [earlier]).key).map (fun d => d.status.managed) = some [earlier] := by
    decide +kernel
  have hcurrent : (w.run none (Controller.sample.create (bereft [earlier]))).state.backend.current?
      ⟨"apps", "shop"⟩ = some (.deployed ⟨"apps", "shop"⟩ "web" "1.0.0" "") := by
    decide +kernel
  obtain ⟨d, hd, hkept⟩ := Option.map_eq_some_iff.mp hmanaged
  exact ⟨hstored, by decide, h, d, _, hd, hcurrent, ⟨rfl, [], rfl, rfl⟩, hkept⟩

end Chartkeeper.Controller
