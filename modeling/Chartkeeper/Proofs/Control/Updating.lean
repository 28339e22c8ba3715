import Chartkeeper.Proofs.Control.Changes
/-!
# What an update records

An update that ends well has written the record up to three times: the status with what it found,
the status once more if a pause takes effect, and at last the metadata. Each write takes up what
the store answered to the one before, or writes what the others leave alone, so nothing of it is
lost.

- `updated_updatedStatus`, `updated_pausedStatus`: the record that is stored then, without a pause
  and with one.
- `status_of_update`: whatever the status said before, it describes the release as it is; a pause
  that is asked for has taken effect; and nothing else has changed.
-/

namespace Chartkeeper.Controller

open World Chartkeeper.Composition

variable {w w' : World} {c : Composition} {r : Release} {managed : List ManagedResource}
  {digest : String}

/-- The readiness of a record that was updated. -/
def readinessOf (c : Composition) (since : Instant) : Condition :=
  if c.wantsPause then .paused StatusWrite.pausedMessage since
  else .available "Composition values updated" since

/-- What becomes of a record by an update that finds a release. -/
structure Updated (w : World) (c : Composition) (r : Release) (d : Composition) : Prop where
  described : Describes w r d.status.managed d.status.digest
  previousDigest : d.status.previousDigest = c.status.digest
  chartUrl : d.status.chartUrl = w.package.url
  chartVersion : d.status.chartVersion = w.package.version
  ready : ∃ since, d.status.condition? Condition.readyType = some (readinessOf c since)
  paused : c.wantsPause = true →
    ∃ noted, d.metadata.annotations.get? pauseTimeAnnotation = some (Instant.textToSecond noted)
  unpaused : c.wantsPause = false → c.metadata.annotations.keys.Nodup →
    d.metadata.annotations.get? pauseTimeAnnotation = none
  spec : d.spec = c.spec
  labels : d.metadata.labels = c.metadata.labels
  annotations : ∀ key, key ≠ pauseTimeAnnotation →
    d.metadata.annotations.get? key = c.metadata.annotations.get? key

/-! ## The record that is stored -/

theorem describes_updatedStatus (h : Describes w r managed digest) (s : Status)
    (package : Package) (now : Instant) :
    Describes w r (updatedStatus s package managed digest now).managed
      (updatedStatus s package managed digest now).digest := by
  unfold updatedStatus
  rw [Status.managed_apply, Status.digest_apply]
  exact h

theorem describes_pausedStatus (h : Describes w r managed digest) (s : Status)
    (package : Package) (now later : Instant) :
    Describes w r (pausedStatus s package managed digest now later).managed
      (pausedStatus s package managed digest now later).digest := by
  have hupdated := describes_updatedStatus h s package now
  unfold pausedStatus
  rw [Status.managed_apply, Status.digest_apply]
  unfold updatedStatus at hupdated ⊢
  rw [Status.digest_apply] at hupdated
  exact hupdated

theorem updated_updatedStatus (hdescribed : Describes w r managed digest)
    (hissued : ∀ old, c.status.condition? Condition.readyType = some old → old.Issued)
    (hwants : c.wantsPause = false) (now : Instant) :
    Updated w c r { c with
      metadata := c.removePauseTime.1.metadata
      status := updatedStatus c.status w.package managed digest now } where
  described := describes_updatedStatus hdescribed _ _ _
  previousDigest := Status.previousDigest_apply _ _ _
  chartUrl := Status.chartUrl_apply _ _ _
  chartVersion := Status.chartVersion_apply _ _ _
  ready := by
    unfold readinessOf
    rw [hwants]
    exact Status.condition?_apply_of_issued _ _ _ hissued
  paused hpaused := by
    rw [hwants] at hpaused
    exact nomatch hpaused
  unpaused _ hnodup := Table.get?_erase_self hnodup
  spec := rfl
  labels := rfl
  annotations _ hne := Table.get?_erase_of_ne hne _

theorem updated_pausedStatus (hdescribed : Describes w r managed digest)
    (hwants : c.wantsPause = true) (noted now later : Instant) :
    Updated w c r { c with
      metadata := (c.setPauseTime noted).metadata
      status := pausedStatus c.status w.package managed digest now later } where
  described := describes_pausedStatus hdescribed _ _ _ _
  previousDigest := Status.previousDigest_apply _ _ _
  chartUrl := Status.chartUrl_apply _ _ _
  chartVersion := Status.chartVersion_apply _ _ _
  ready := by
    unfold readinessOf
    rw [hwants]
    -- The first write has made the record available, whatever it was, so the second says
    -- something new.
    exact Status.condition?_apply_asPaused _ _ now rfl later
  paused _ := ⟨noted, Table.get?_insert_self _ _ _⟩
  unpaused hunpaused := by
    rw [hwants] at hunpaused
    exact nomatch hunpaused
  spec := rfl
  labels := rfl
  annotations _ hne := Table.get?_insert_of_ne hne _ _

theorem update_stored (hc : w.Stores c) (hpause : c.pause ≠ .paused)
    (hissued : ∀ old, c.status.condition? Condition.readyType = some old → old.Issued)
    (h : (update c).Ends troubled w (.ok ()) w') :
    ∃ r d, w.backend.current? (releaseKey c c.releaseName) = some r ∧ w'.Stores d ∧
      d.key = c.key ∧ Updated w c r d := by
  obtain ⟨r, w₁, hfound, hw, hstore, -, h₁⟩ := update_cut hpause h
  have hc₁ : w₁.Stores c := by
    unfold Stores
    rw [hstore]
    exact hc
  obtain ⟨managed, digest, now, hdescribed, hstored⟩ := recordUpdated_ok hc₁ rfl h₁
  replace hdescribed := hdescribed.congr hw.symm
  rcases hstored with ⟨hwants, hstored⟩ | ⟨hwants, noted, later, hstored⟩
  · exact ⟨r, _, hfound, hstored, rfl, updated_updatedStatus hdescribed hissued hwants now⟩
  · exact ⟨r, _, hfound, hstored, rfl, updated_pausedStatus hdescribed hwants noted now later⟩

/-- **What an update does.** Whatever the status of a record said before, it describes the release
then; the pause is as it is asked for; and nothing else is changed, neither in the record nor among
releases and permissions. -/
theorem status_of_update {deadline : Option Nat} (hstored : w.store.get? c.key = some c)
    (hpause : c.pause ≠ .paused)
    (hissued : ∀ old, c.status.condition? Condition.readyType = some old → old.Issued)
    (h : (w.run deadline (update c)).result = .ok ()) :
    ∃ d r, (w.run deadline (update c)).state.store.get? c.key = some d ∧
      w.backend.current? (releaseKey c c.releaseName) = some r ∧ Updated w c r d ∧
      Same .releases w (w.run deadline (update c)).state ∧
      Same .permissions w (w.run deadline (update c)).state := by
  have hends := troubled_of_answers (Program.ends_of_run_ok h)
  obtain ⟨r, d, hfound, hd, hkey, hupdated⟩ := update_stored hstored hpause hissued hends
  unfold Stores at hd
  rw [hkey] at hd
  refine ⟨d, r, hd, hfound, hupdated, ?_, ?_⟩
  · exact (leaves_update (by decide) c).same hends
  · exact (leaves_update (by decide) c).same hends

/-- A record whose status lists a resource of an earlier manifest, and for which a pause is asked. -/
def outdated : Composition :=
  { Composition.sample.withAnnotation pauseAnnotation "true" with
    status := ⟨"1f616796b4505e74", "", "chart", "0.9.0",
      [⟨"v1", "configmaps", "shop", "apps", "configmaps/shop"⟩],
      [.available "Composition created" default]⟩ }

/-- The manifest of a later release. -/
def renewedManifest : String :=
  "apiVersion: composition/v1\nkind: Web\nmetadata: \x7bname: front, namespace: apps\x7d\n"

/-- Its release has another resource by now. -/
def renewed : World :=
  (World.sample "" outdated).modifyBackend
    (Backend.seed · (.deployed ⟨"apps", "shop"⟩ "web" "1.0.0" renewedManifest))

/-- The update forgets the one resource for the other, and the pause takes effect. -/
theorem status_of_update_outdated :
    renewed.store.get? outdated.key = some outdated ∧ outdated.pause ≠ .paused ∧
      (renewed.run none (update outdated)).result = .ok () ∧
      ∃ d since, (renewed.run none (update outdated)).state.store.get? outdated.key = some d ∧
        d.status.managed = [⟨"composition/v1", "webs", "front", "apps",
          "/apis/composition/v1/namespaces/apps/webs/front"⟩] ∧
        d.status.digest = "d93a34c827f1c51" ∧ d.status.previousDigest = "1f616796b4505e74" ∧
        d.status.condition? Condition.readyType =
          some (.paused StatusWrite.pausedMessage since) := by
  have hstored : renewed.store.get? outdated.key = some outdated := sample_stores "" outdated
  have hpause : outdated.pause ≠ .paused := by decide +kernel
  have hissued (old) (hold : outdated.status.condition? Condition.readyType = some old) :
      old.Issued := by
    obtain rfl := Option.some.inj hold
    exact ⟨_, _, Or.inl rfl⟩
  have h : (renewed.run none (update outdated)).result = .ok () :=
    Fault.eq_ok_of_toOption (by decide +kernel)
  obtain ⟨d, r, hd, hfound, hupdated, -, -⟩ := status_of_update hstored hpause hissued h
  obtain ⟨since, hready⟩ := hupdated.ready
  have hcurrent : renewed.backend.current? (releaseKey outdated outdated.releaseName) =
      some (.deployed ⟨"apps", "shop"⟩ "web" "1.0.0" renewedManifest) := by
    decide +kernel
  obtain rfl := Option.some.inj (hcurrent.symm.trans hfound)
  obtain ⟨-, outlines, hdecode, hmanaged⟩ := hupdated.described
  have hread : Manifest.decode .outline renewedManifest =
      .ok ([⟨"composition/v1", "Web", "front", "apps", []⟩], "d93a34c827f1c51") :=
    Fault.eq_ok_of_toOption (by decide +kernel)
  obtain ⟨rfl, hdigest⟩ := Prod.mk.inj (Except.ok.inj (hdecode.symm.trans hread))
  have hresolved : ManagedResource.ofOutlines renewed.mapper
      [⟨"composition/v1", "Web", "front", "apps", []⟩] = .ok [⟨"composition/v1", "webs", "front",
        "apps", "/apis/composition/v1/namespaces/apps/webs/front"⟩] :=
    Fault.eq_ok_of_toOption (by decide +kernel)
  exact ⟨hstored, hpause, h, d, since, hd, Except.ok.inj (hmanaged.symm.trans hresolved), hdigest,
    hupdated.previousDigest, hready⟩

end Chartkeeper.Controller
