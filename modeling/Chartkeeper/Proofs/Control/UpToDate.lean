import Chartkeeper.Proofs.Control.Convergence
/-!
# What a pass that finds everything up to date leaves behind

A pass that reports a record as up to date has upgraded its release to the one that the record
asks for, and the stored status carries the digest of its manifest and the chart that it came
from. It has not looked at the managed resources: those stay as they were stored before. So the
status describes the release only if it listed the right resources already, and it does not
after a creation that stopped between the installation and the status write.
-/

namespace Chartkeeper.Controller

open World Chartkeeper.Composition

variable {k : Controller} {w w' : World} {c : Composition}

/-! ## One pass -/

/-- A pass that reports a record as up to date did nothing after observing it. -/
theorem observe_of_upToDate (h : (k.reconcile c).Ends troubled w (.ok .upToDate) w') :
    (k.observe c).Ends troubled w (.ok .current) w' := by
  cases hdeleting : c.isDeleting with
  | true =>
      unfold reconcile Client.reconcile at h
      rw [hdeleting] at h
      obtain ⟨_, _, -, hdeleted, -⟩ :=
        (Program.ends_bind_ok (p := k.client.delete c)).mp h
      exact nomatch hdeleted
  | false =>
      rw [reconcile_of_not_deleting hdeleting] at h
      obtain ⟨⟨found, same⟩, w₁, hobserve, h₁⟩ := Program.ends_bind_ok.mp h
      cases found with
      | false =>
          obtain ⟨_, _, -, hcreated, -⟩ := (Program.ends_bind_ok (p := k.create c)).mp h₁
          exact nomatch hcreated
      | true =>
          cases same with
          | false =>
              obtain ⟨_, _, -, hupdated, -⟩ := (Program.ends_bind_ok (p := update c)).mp h₁
              exact nomatch hupdated
          | true =>
              obtain ⟨-, rfl⟩ := h₁
              exact hobserve

/-! ## The stored status -/

/-- Up to date as it is, a record lists the resources that it listed before. -/
theorem managed_upToDate (record : Composition) (package : Package) (before after : Release)
    (now : Instant) :
    (upToDate record package before after now).status.managed = record.status.managed := by
  show (record.status.apply (upToDateWrite record package before after) now).1.managed = _
  rw [Status.managed_apply]
  rfl

/-- **What is true when a record is up to date.** The stored status carries the digest of the
current release and the chart of the package. It describes that release exactly when the status
stored before the pass listed the resources of what the record renders to. -/
theorem status_of_upToDate {deadline : Option Nat}
    (hstored : w.store.get? c.key = some c) (hpause : c.pause ≠ .paused)
    (h : (w.run deadline (k.reconcile c)).result = .ok .upToDate) :
    ∃ c' r rendered,
      (w.run deadline (k.reconcile c)).state.store.get? c.key = some c' ∧
      (w.run deadline (k.reconcile c)).state.backend.current?
        (releaseKey c c.releaseName) = some r ∧
      k.wanted w c = .ok rendered ∧
      c'.status.digest = Digest.ofManifest r.manifest ∧
      c'.status.chartUrl = w.package.url ∧
      c'.status.chartVersion = w.package.version ∧
      (Describes w r c'.status.managed c'.status.digest ↔
        Describes w rendered c.status.managed (Digest.ofManifest rendered.manifest)) := by
  have hends := observe_of_upToDate (troubled_of_answers (Program.ends_of_run_ok h))
  rcases observe_ok hstored hends with ⟨hpaused, -⟩ | ⟨-, hfound⟩
  · exact absurd hpaused hpause
  · have halike := alike_marked hpause w.package.definition
    have hstatus := status_marked c w.package.definition
    generalize marked c w.package.definition = record at halike hstatus hfound
    cases hfound with
    | current found before after current kept fits upgraded same now stored =>
        obtain ⟨rendered, hwanted, hafter⟩ := fits
        rw [releaseKey_eq_of_alike halike, halike.releaseName] at upgraded
        rw [wanted_eq rfl halike] at hwanted
        have hkey : (upToDate record w.package before after now).key = c.key := halike.key
        have hdigest : (upToDate record w.package before after now).status.digest =
            Digest.ofManifest after.manifest := Status.digest_apply _ _ _
        unfold Stores at stored
        rw [hkey] at stored
        refine ⟨_, after, rendered, stored, upgraded, hwanted, hdigest,
          Status.chartUrl_apply _ _ _, Status.chartVersion_apply _ _ _, ?_⟩
        rw [managed_upToDate, hstatus, hdigest, hafter]
        exact Iff.rfl

theorem finds_sample : Controller.sample.Finds (World.sample webTemplate .sample) .sample
    [webResource] "504d5c4d584e1f5c" :=
  finds_webFields (by decide +kernel)

/-- A creation in a calm world. -/
def launch : Run Port World Unit :=
  (World.sample webTemplate .sample).run none (Controller.sample.create .sample)

/-- The record that is stored then. -/
def launchedRecord : Composition :=
  (launch.state.store.get? Composition.sample.key).getD .sample

/-- The record describes its release, and nothing is to be done about it. -/
theorem settled_launch : launch.state.Stores launchedRecord ∧
    Settled .sample launchedRecord launch.state ∧
    ∃ now, launchedRecord = installed .sample (World.sample webTemplate .sample).package
      [webResource] "504d5c4d584e1f5c" now := by
  obtain ⟨now, hstored, hsettled⟩ := settled_of_create_calm (calm_sample webTemplate .sample)
    (sample_stores webTemplate .sample) (by decide) finds_sample
  have hsame : launchedRecord = installed .sample (World.sample webTemplate .sample).package
      [webResource] "504d5c4d584e1f5c" now :=
    hstored.getD (alike_installed (by decide) _ _ _ _).key .sample
  rw [hsame]
  exact ⟨hstored, hsettled, now, rfl⟩

theorem alike_launchedRecord : Alike .sample launchedRecord := by
  obtain ⟨-, -, now, hsame⟩ := settled_launch
  rw [hsame]
  exact alike_installed (by decide) _ _ _ _

theorem finds_launchedRecord :
    Controller.sample.Finds launch.state launchedRecord [webResource] "504d5c4d584e1f5c" :=
  finds_sample.congr (surroundings_run _ _) alike_launchedRecord

/-- The pass after that finds everything up to date. -/
theorem upToDate_launched :
    let pass := launch.state.run none (Controller.sample.reconcile launchedRecord)
    pass.result = .ok .upToDate ∧ Settled .sample launchedRecord pass.state := by
  obtain ⟨hstored, hsettled, -⟩ := settled_launch
  exact upToDate_of_settled (calm_run (calm_sample webTemplate .sample) _) hstored
    alike_launchedRecord.isDeleting alike_launchedRecord.pause ⟨_, _, finds_launchedRecord⟩ hsettled

/-- What the creation recorded is true of the release that the pass leaves. -/
theorem status_of_upToDate_launched :
    let pass := launch.state.run none (Controller.sample.reconcile launchedRecord)
    launch.state.store.get? launchedRecord.key = some launchedRecord ∧
      launchedRecord.pause ≠ .paused ∧ pass.result = .ok .upToDate ∧
      ∃ c', pass.state.store.get? launchedRecord.key = some c' ∧
        c'.status.managed = [webResource] ∧ c'.status.digest = "504d5c4d584e1f5c" ∧
        c'.status.chartUrl = "chart" ∧ c'.status.chartVersion = "1.0.0" := by
  obtain ⟨hstored, -, now, hsame⟩ := settled_launch
  obtain ⟨hr, -, release, -, -, hrelease, hfits, -⟩ := upToDate_launched
  have hpause : launchedRecord.pause ≠ .paused := by
    rw [alike_launchedRecord.pause]
    decide
  have hkept := surroundings_run (Controller.sample.reconcile launchedRecord) launch.state
  have hpackage : launch.state.package = (World.sample webTemplate .sample).package :=
    package_run _ _
  have hmanaged : launchedRecord.status.managed = [webResource] := by
    rw [hsame, managed_installed]
    rfl
  obtain ⟨c', r, rendered, hc', hcurrent, hwanted, -, hurl, hversion, hiff⟩ :=
    status_of_upToDate hstored hpause hr
  obtain rfl : release = r := Option.some.inj (hrelease.symm.trans hcurrent)
  -- The release describes what the record asks for, so it is described as that is.
  obtain ⟨r, hr', hdescribed⟩ := finds_launchedRecord
  have hbefore : Describes launch.state rendered [webResource] "504d5c4d584e1f5c" :=
    hdescribed.of_fits hr' ⟨rendered, hwanted, rfl⟩
  have hafter := hiff.mpr (by rw [hmanaged, ← hbefore.1]; exact hbefore)
  obtain ⟨hlisted, hdigest⟩ :=
    finds_launchedRecord.eq ⟨release, hfits.congr hkept.symm (Alike.refl _), hafter⟩
  rw [hpackage] at hurl hversion
  exact ⟨hstored, hpause, hr, c', hc', hlisted, hdigest, hurl, hversion⟩

/-- The world after a creation that stopped at describing what it installed: the chart renders a
document that is no object. -/
def stopped : World :=
  ((World.sample "0" .sample).run none (Controller.sample.create .sample)).state

/-- The record that is stored then. -/
def stoppedRecord : Composition :=
  (stopped.store.get? Composition.sample.key).getD .sample

/-- The pass after that. -/
def passAfterStop : Run Port World Outcome :=
  stopped.run none (Controller.sample.reconcile stoppedRecord)

/-- **Not every record that is up to date is described.** The pass after a creation that stopped
reports the record as up to date, but no status describes its release. -/
theorem upToDate_not_described :
    stopped.store.get? Composition.sample.key = some stoppedRecord ∧
      passAfterStop.result = .ok .upToDate ∧
      ∃ r, passAfterStop.state.backend.current? ⟨"apps", "shop"⟩ = some r ∧
        ∀ managed digest, ¬Describes passAfterStop.state r managed digest := by
  have hstored : (stopped.store.get? Composition.sample.key).isSome = true := by decide +kernel
  have hcurrent : passAfterStop.state.backend.current? ⟨"apps", "shop"⟩ =
      some { Release.deployed ⟨"apps", "shop"⟩ "web" "1.0.0" "0\n" with revision := 2 } := by
    decide +kernel
  have hillegible : (Manifest.decode .outline "0\n").toOption.isNone = true := by
    decide +kernel
  refine ⟨?_, Fault.eq_ok_of_toOption (by decide +kernel), _, hcurrent, ?_⟩
  · obtain ⟨c, hc⟩ := Option.isSome_iff_exists.mp hstored
    unfold stoppedRecord
    rw [hc]
    rfl
  · rintro managed digest ⟨-, outlines, hdecode, -⟩
    rw [show Manifest.decode .outline "0\n" = .ok (outlines, digest) from hdecode] at hillegible
    exact nomatch hillegible

end Chartkeeper.Controller
