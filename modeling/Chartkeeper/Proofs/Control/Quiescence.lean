import Chartkeeper.Proofs.Control.Convergence
import Chartkeeper.Proofs.Control.Grants
import Chartkeeper.Proofs.Control.Persistence
import Chartkeeper.Proofs.Control.UpToDate
/-!
# A loop at rest leaves everything alone

A pass that finds everything up to date still upgrades the release, and the next pass compares with
what this one wrote. So rest is more than an answer: here it is shown that nothing is left to be
written after it.

- `Still`: the record carries its marks, its permissions are applied, its release is what it asks
  for, and writing its status again would change nothing.
- `still_of_upToDate`: a pass that finds everything up to date leaves a record still.
- `reconcile_of_still`: a pass over such a record finds everything up to date, writes no record and
  leaves it still; only the revision of the release goes up.
- `unmoved_of_upToDate`: so do any number of passes.
-/

namespace Chartkeeper

open World

/-! ## How often a store is written -/

/-- How often a store was written, with success or without. -/
def Store.writes (s : Store) : Nat :=
  s.updates + s.statusUpdates

namespace World

theorem writes_effect (w : World) (call : Port.Call) :
    (w.effect call).2.store.writes =
      w.store.writes + if call.changes = some .records then 1 else 0 := by
  by_cases hcall : call.changes = some .records
  · rw [if_pos hcall]
    cases call with
    | updateRecord record =>
        show (w.store.update record).2.writes = _
        simp only [Store.update, Store.insert, Store.writes]
        omega
    | updateStatus record =>
        show (w.store.updateStatus record).2.writes = _
        unfold Store.updateStatus
        dsimp only
        split
        · simp only [Store.writes]
          omega
        · split
          · simp only [Store.writes]
            omega
          · simp only [Store.insert, Store.writes]
            omega
    | _ => exact nomatch hcall
  · rw [if_neg hcall, store_effect hcall]
    rfl

/-- The store counts the writes of a run. -/
theorem writes_of_run {α : Type} (p : Task α) (w : World) (elapsed : Nat) :
    (p.run machine none w elapsed).state.store.writes = w.store.writes +
      (p.run machine none w elapsed).calls.countP fun call => call.changes = some .records := by
  -- The count of one call is added to that of the rest, which starts later.
  induction p generalizing w elapsed with
  | done result => rfl
  | call c next ih =>
      have hfirst := writes_effect w c
      have hrest := ih (w.effect c).1 (w.effect c).2 (elapsed + w.wait c)
      show ((next (w.effect c).1).run machine none (w.effect c).2
          (elapsed + w.wait c)).state.store.writes = w.store.writes +
        (c :: ((next (w.effect c).1).run machine none (w.effect c).2
          (elapsed + w.wait c)).calls).countP fun call => call.changes = some .records
      rw [hrest, hfirst, List.countP_cons]
      simp only [decide_eq_true_eq]
      omega

/-- A run that leaves the store as it is makes no write. -/
theorem no_writes_of_store {α : Type} {p : Task α} {w : World}
    (h : (w.run none p).state.store = w.store) :
    ∀ call ∈ (w.run none p).calls, call.changes ≠ some .records := by
  have hcount := writes_of_run p w 0
  have hstore : (p.run machine none w 0).state.store = w.store := h
  rw [hstore] at hcount
  have hnone : (p.run machine none w 0).calls.countP
      (fun call => call.changes = some .records) = 0 := by omega
  intro call hcall hchanges
  exact List.countP_eq_zero.mp hnone call hcall (by simpa using hchanges)

end World

namespace Controller

open Chartkeeper.Composition

variable {k : Controller} {w w' w'' : World} {c d : Composition} {key : ReleaseKey}

/-! ## What a pass at rest does not change -/

/-- Two worlds with the same store, counters included, the same permissions, and the same release
under a key, whatever its revision. -/
structure Unmoved (key : ReleaseKey) (w w' : World) : Prop where
  store : w'.store = w.store
  release : (w'.backend.current? key).map Release.unnumbered =
    (w.backend.current? key).map Release.unnumbered
  permissions : w'.cluster.objects = w.cluster.objects

theorem Unmoved.refl (key : ReleaseKey) (w : World) : Unmoved key w w := ⟨rfl, rfl, rfl⟩

theorem Unmoved.trans (h : Unmoved key w w') (h' : Unmoved key w' w'') : Unmoved key w w'' :=
  ⟨h'.store.trans h.store, h'.release.trans h.release, h'.permissions.trans h.permissions⟩

/-- Nothing is left to be done about a record. -/
structure Still (k : Controller) (c : Composition) (w : World) : Prop where
  stored : w.Stores c
  deleting : c.isDeleting = false
  active : c.pause = .active
  named : (c.setReleaseName c.releaseName).2 = false
  resumed : c.removePauseTime.2 = false
  defined : (c.setDefinition w.package.definition).2 = false
  granted : Cluster.grant (k.granted w c) w.cluster.objects = w.cluster.objects
  described : ∃ r, w.backend.current? (releaseKey c c.releaseName) = some r ∧ k.Fits w c r ∧
    c.status.digest = Digest.ofManifest r.manifest ∧
    ∀ now, (c.status.apply (upToDateWrite c w.package r r) now).2 = false

theorem Still.marked (h : Still k c w) : marked c w.package.definition = c := by
  have hnamed : (c.setReleaseName c.releaseName).1.removePauseTime.1 = c := by
    rw [eq_of_setReleaseName h.named, eq_of_removePauseTime h.resumed]
  unfold Controller.marked
  rw [hnamed, eq_of_setDefinition h.defined]

/-! ## One pass -/

theorem store_of_observeUpgraded {package : Package} {before after : Release} {o : Observation}
    (hwrite : ∀ now, (c.status.apply (upToDateWrite c package before after) now).2 = false)
    (h : (observeUpgraded c package before after).Ends troubled w (.ok o) w') :
    w'.store = w.store := by
  by_cases hout : Outdated c before after
  · rw [observeUpgraded_of_outdated hout] at h
    obtain ⟨-, rfl⟩ := h
    rfl
  · rw [observeUpgraded_of_not_outdated hout] at h
    obtain ⟨⟨written, changed⟩, w₁, hwritten, hsave⟩ := Program.ends_bind_ok.mp h
    obtain ⟨now, -, hchanged⟩ := writeStatus_ok hwritten
    rw [hwrite now] at hchanged
    subst hchanged
    obtain ⟨-, rfl⟩ := hsave
    exact (leaves_writeStatus .records _ _).store hwritten

theorem store_of_renew {before : Release} {o : Observation} (hbefore : k.Fits w c before)
    (hwrite : ∀ now, (c.status.apply (upToDateWrite c w.package before before) now).2 = false)
    (h : (k.renew c c.releaseName w.package before).Ends troubled w (.ok o) w') :
    w'.store = w.store := by
  obtain ⟨after, w₁, hafter, -, hstore, -, hrest⟩ := renew_cut h
  have hmanifest : after.manifest = before.manifest := by rw [hbefore.eq hafter]
  -- The upgrade renders what is deployed already, so it leads to the same write.
  have hsame : upToDateWrite c w.package before after = upToDateWrite c w.package before before := by
    unfold upToDateWrite
    rw [hmanifest]
  rw [← hstore]
  exact store_of_observeUpgraded (hsame ▸ hwrite) hrest

theorem store_of_mark {marking : Composition × Package} (hstill : Still k c w)
    (h : (mark c).Ends troubled w (.ok marking) w') : w'.store = w.store := by
  have hnamed := eq_of_setReleaseName hstill.named
  unfold mark at h
  simp only [hnamed, hstill.named, hstill.resumed, eq_of_removePauseTime hstill.resumed,
    Bool.or_self] at h
  obtain ⟨record, _, ⟨hrecord, rfl⟩, h₁⟩ := Program.ends_bind_ok.mp h
  obtain rfl := Except.ok.inj hrecord
  obtain ⟨package, w₁, hpackage, h₂⟩ := Program.ends_bind_ok.mp h₁
  rw [findPackage_ok hpackage, hstill.defined] at h₂
  obtain ⟨_, _, ⟨-, rfl⟩, -, rfl⟩ := Program.ends_bind_ok.mp h₂
  exact (leaves_findPackage .records _).store hpackage

/-- Observing a record about which nothing is left to be done writes nothing. -/
theorem store_of_observe {o : Observation} (hstill : Still k c w)
    (h : (k.observe c).Ends troubled w (.ok o) w') : w'.store = w.store := by
  have hpause : c.pause ≠ .paused := by
    rw [hstill.active]
    exact nofun
  rw [observe_of_mark hpause] at h
  obtain ⟨⟨record, package⟩, w₁, hmark, h₁⟩ := Program.ends_bind_ok.mp h
  obtain ⟨found, w₂, hfind, h₂⟩ := Program.ends_bind_ok.mp h₁
  obtain ⟨hrecord, hpackage, -⟩ := mark_ok hstill.stored hpause hmark
  rw [hstill.marked] at hrecord
  subst hrecord hpackage
  have hstore₁ := store_of_mark hstill hmark
  have hstore₂ := (leaves_findRelease .records _ _).store hfind
  cases found with
  | none =>
      obtain ⟨-, rfl⟩ := h₂
      rw [hstore₂, hstore₁]
  | some release =>
      obtain ⟨r, hr, hfits, -, hwrite⟩ := hstill.described
      obtain ⟨before, w₃, hrecover, hrenew⟩ := Program.ends_bind_ok.mp h₂
      dsimp only at hfind hrecover hrenew
      have hw₂ : w₂.surroundings = w.surroundings := by
        rw [surroundings_ends hfind, surroundings_ends hmark]
      have hw₃ : w₃.surroundings = w.surroundings := by
        rw [surroundings_ends hrecover, hw₂]
      have hcurrent : w₂.backend.current? (releaseKey record record.releaseName) = some release := by
        rw [((leaves_findRelease .releases _ _).same hfind).current?]
        exact (findRelease_ok hfind).symm
      -- The release that is looked up is the one that the record describes.
      obtain rfl : r = release := by
        rw [((leaves_findRelease .releases _ _).same hfind).current?,
          ((leaves_mark (by decide) _).same hmark).current?, hr] at hcurrent
        exact Option.some.inj hcurrent
      -- The release is deployed, so it is not rolled back.
      obtain rfl : before = r :=
        (recover_ok hcurrent hrecover).1 (by rw [hfits.status]; rfl)
      have hpackage : w₃.package = w.package := congrArg Surroundings.package hw₃
      rw [← hpackage] at hrenew hwrite
      rw [store_of_renew (hfits.congr hw₃ (Alike.refl record)) hwrite hrenew,
        (leaves_recover (by decide) k _ before).store hrecover, hstore₂, hstore₁]

/-- What would be written to a record that was just found up to date is what was written. -/
theorem upToDateWrite_again {record : Composition} {package : Package} {before after : Release}
    (now : Instant)
    (hsame : Digest.ofManifest after.manifest = previousDigest record before) :
    upToDateWrite (upToDate record package before after now) package after after =
      upToDateWrite record package before after := by
  have hdigest : (upToDate record package before after now).status.digest =
      Digest.ofManifest after.manifest := Status.digest_apply _ _ _
  have hprevious : previousDigest (upToDate record package before after now) after =
      previousDigest record before := by
    unfold previousDigest
    rw [hdigest, ite_self, hsame]
    rfl
  unfold upToDateWrite
  rw [hprevious]

/-- **A pass that finds everything up to date** leaves nothing to be done. -/
theorem still_of_upToDate (hc : w.Stores c) (hdeleting : c.isDeleting = false)
    (hpause : c.pause ≠ .paused) (hnodup : c.metadata.annotations.keys.Nodup)
    (h : (k.reconcile c).Ends troubled w (.ok .upToDate) w') : ∃ d, Alike c d ∧ Still k d w' := by
  have hobserve := observe_of_upToDate h
  have hw := surroundings_ends hobserve
  have hgranted := granted_of_observe hc hpause hobserve rfl
  -- From here on only the marks of the record matter, not how they were set.
  obtain ⟨-, hfound⟩ := (observe_ok hc hobserve).resolve_left fun hleft => hpause hleft.1
  have halike := alike_marked hpause w.package.definition
  have hlabel := releaseName_marked c w.package.definition
  have hcarries := carries_marked c w.package.definition
  have hnote := annotations_marked c w.package.definition
  generalize marked c w.package.definition = record at halike hlabel hcarries hnote hfound
  cases hfound with
  | current found before after current kept fits upgraded same now stored =>
      have hsame : Digest.ofManifest after.manifest = previousDigest record before :=
        Classical.not_not.mp fun hne => same (Or.inl hne)
      have hdigest : (upToDate record w.package before after now).status.digest =
          Digest.ofManifest after.manifest := Status.digest_apply _ _ _
      have hupToDate : Alike c (upToDate record w.package before after now) :=
        halike.trans (alike_status record _)
      have hpackage : w'.package = w.package := congrArg Surroundings.package hw
      refine ⟨upToDate record w.package before after now, hupToDate, stored, ?_, ?_, ?_, ?_, ?_, ?_,
        after, upgraded, fits.congr hw (alike_status record _), hdigest, fun later => ?_⟩
      · exact hupToDate.isDeleting.trans hdeleting
      · exact hupToDate.pause.trans (active_of_not_outdated halike hpause same)
      · rw [← Bool.not_eq_true, changed_setReleaseName, Classical.not_not, hupToDate.releaseName]
        exact hlabel
      · rw [← Bool.not_eq_true]
        intro hnoted
        refine Table.get?_eq_none_iff.mp ?_ (Table.contains_eq_true_iff.mp hnoted)
        show record.metadata.annotations.get? pauseTimeAnnotation = none
        rw [hnote]
        exact Table.get?_erase_self hnodup
      · rw [hpackage]
        refine not_changed_setDefinition ((carries_congr ?_).mpr hcarries)
        rfl
      · rw [granted_congr hw hupToDate, hgranted, Cluster.grant_self]
      · rw [hpackage, upToDateWrite_again now hsame]
        exact congrArg Prod.snd (Status.apply_again _ _ now later)

/-- **A pass over a record about which nothing is left to be done** finds it up to date, and leaves
it so. -/
theorem reconcile_of_still {r : Except Fault Outcome} (hstill : Still k c w)
    (h : (k.reconcile c).Ends serving w r w') :
    r = .ok .upToDate ∧ Unmoved (releaseKey c c.releaseName) w w' ∧ Still k c w' := by
  obtain ⟨before, hbefore, hfits, hdigest, hwrite⟩ := hstill.described
  have hpause : c.pause ≠ .paused := by
    rw [hstill.active]
    exact nofun
  have hsettled : Settled k c w :=
    ⟨c, before, hstill.stored, Alike.refl c, hbefore, hfits, Or.inr hdigest⟩
  have hr : r = .ok .upToDate := by
    rcases reconcile_of_settled hstill.stored hsettled hstill.deleting hpause hfits.makeable
      (Or.inr hstill.active) h with ⟨hrequested, -⟩ | ⟨-, hr, -⟩
    · rw [hstill.active] at hrequested
      exact nomatch hrequested
    · exact hr
  subst hr
  have hobserve := observe_of_upToDate (troubled_of_serving h)
  have hw := surroundings_ends hobserve
  have hstore := store_of_observe hstill hobserve
  have hpermissions : w'.cluster.objects = w.cluster.objects :=
    (granted_of_observe hstill.stored hpause hobserve rfl).trans hstill.granted
  obtain ⟨-, hfound⟩ :=
    (observe_ok hstill.stored hobserve).resolve_left fun hleft => hpause hleft.1
  rw [hstill.marked] at hfound
  cases hfound with
  | current found _ after current kept fits upgraded same now stored =>
      have hmanifest : after.manifest = before.manifest := by rw [hfits.eq fits]
      have hpackage : w'.package = w.package := congrArg Surroundings.package hw
      refine ⟨rfl, ⟨hstore, ?_, hpermissions⟩, ?_, hstill.deleting, hstill.active, hstill.named,
        hstill.resumed, ?_, ?_, after, upgraded, fits.congr hw (Alike.refl c), ?_, fun later => ?_⟩
      · rw [upgraded, hbefore, Option.map_some, Option.map_some, hfits.unnumbered fits]
      · unfold Stores
        rw [hstore]
        exact hstill.stored
      · rw [hpackage]
        exact hstill.defined
      · rw [granted_congr hw (Alike.refl c), hpermissions]
        exact hstill.granted
      · rw [hmanifest]
        exact hdigest
      · rw [← hwrite later]
        unfold upToDateWrite previousDigest
        rw [hmanifest, hpackage]

/-! ## Any number of passes -/

/-- The stored record is paused, or nothing is left to be done about it. -/
def Idle (k : Controller) (c : Composition) (w : World) : Prop :=
  Resting c.key w ∨ ∃ d, Alike c d ∧ Still k d w

/-- A pass over a paused record changes nothing at all. -/
theorem leaves_reconcile_of_paused (hdeleting : c.isDeleting = false) (hpause : c.pause = .paused)
    (x : Holding) : Leaves x (k.reconcile c) := by
  rw [reconcile_of_not_deleting hdeleting, observe_of_paused hpause, Program.bind_assoc]
  exact leaves_told

theorem idle_of_upToDate (hc : w.Stores c) (hdeleting : c.isDeleting = false)
    (hnodup : c.metadata.annotations.keys.Nodup)
    (h : (k.reconcile c).Ends troubled w (.ok .upToDate) w') : Idle k c w' := by
  by_cases hpause : c.pause = .paused
  · have hsame := (leaves_reconcile_of_paused hdeleting hpause .records).same h
    exact Or.inl ⟨c, hsame.stores hc, hdeleting, hpause⟩
  · exact Or.inr (still_of_upToDate hc hdeleting hpause hnodup h)

/-- One more pass. -/
theorem pass_of_idle (hidle : Idle k c w) (hsmooth : (w.pass k c.key).Smooth machine) :
    (w.pass k c.key).result = .ok .upToDate ∧
      (∀ call ∈ (w.pass k c.key).calls, call.changes ≠ some .records) ∧
      Unmoved (releaseKey c c.releaseName) w (w.pass k c.key).state ∧
      Idle k c (w.pass k c.key).state := by
  -- A paused record is left alone, any other is still.
  rcases hidle with ⟨d, hd, hdeleting, hpause⟩ | ⟨d, halike, hstill⟩
  · have hends := ends_pass hd hsmooth
    rw [pass_of_stored hd] at hends ⊢
    replace hends := troubled_of_serving hends
    have hleaves (x : Holding) : Leaves x (k.reconcile d) :=
      leaves_reconcile_of_paused hdeleting hpause x
    have hstore := (hleaves .records).store hends
    refine ⟨(reconcile_of_paused hdeleting hpause hends).1, no_writes_of_store hstore,
      ⟨hstore, ?_, (hleaves .permissions).same hends⟩, Or.inl ⟨d, ?_, hdeleting, hpause⟩⟩
    · rw [((hleaves .releases).same hends).current?]
    · rw [hstore]
      exact hd
  · have hd : w.store.get? c.key = some d := halike.key ▸ hstill.stored
    have hends := ends_pass hd hsmooth
    rw [pass_of_stored hd] at hends ⊢
    obtain ⟨hr, hunmoved, hstill'⟩ := reconcile_of_still hstill hends
    rw [releaseKey_eq_of_alike halike, halike.releaseName] at hunmoved
    exact ⟨hr, no_writes_of_store hunmoved.store, hunmoved, Or.inr ⟨d, halike, hstill'⟩⟩

theorem idle_afterPasses (hidle : Idle k c w) :
    ∀ n, (∀ i < n, ((w.afterPasses k c.key i).pass k c.key).Smooth machine) →
      Idle k c (w.afterPasses k c.key n) ∧
        Unmoved (releaseKey c c.releaseName) w (w.afterPasses k c.key n)
  | 0, _ => ⟨hidle, Unmoved.refl _ w⟩
  | n + 1, hsmooth => by
      obtain ⟨hbefore, hunmoved⟩ := idle_afterPasses hidle n fun i hi => hsmooth i (by omega)
      obtain ⟨-, -, hpass, hafter⟩ := pass_of_idle hbefore (hsmooth n (by omega))
      exact ⟨hafter, hunmoved.trans hpass⟩

/-- **Quiescence.** After a pass that found everything up to date, as long as no call fails, every
later pass finds everything up to date as well and writes no record. The store stays as it is, with
every time in it, and so do the permissions, and the release up to its revision. -/
theorem unmoved_of_upToDate {deadline : Option Nat} {n : Nat}
    (hstored : w.store.get? c.key = some c) (hdeleting : c.isDeleting = false)
    (hnodup : c.metadata.annotations.keys.Nodup)
    (h : (w.run deadline (k.reconcile c)).result = .ok .upToDate)
    (hsmooth : ∀ i ≤ n, (((w.run deadline (k.reconcile c)).state.afterPasses k c.key i).pass
      k c.key).Smooth machine) :
    let first := w.run deadline (k.reconcile c)
    let later := (first.state.afterPasses k c.key n).pass k c.key
    later.result = .ok .upToDate ∧ (∀ call ∈ later.calls, call.changes ≠ some .records) ∧
      Unmoved (releaseKey c c.releaseName) first.state later.state := by
  intro first later
  have hends := troubled_of_answers (Program.ends_of_run_ok h)
  have hidle := idle_of_upToDate hstored hdeleting hnodup hends
  obtain ⟨hbefore, hunmoved⟩ := idle_afterPasses hidle n fun i hi => hsmooth i (by omega)
  obtain ⟨hr, hcalls, hpass, -⟩ := pass_of_idle hbefore (hsmooth n (Nat.le_refl n))
  exact ⟨hr, hcalls, hunmoved.trans hpass⟩

/-- The passes after a creation find everything up to date and leave everything as it is. -/
theorem unmoved_of_upToDate_launched :
    let first := launch.state.run none (Controller.sample.reconcile launchedRecord)
    let later := (first.state.afterPasses .sample launchedRecord.key 1).pass .sample
      launchedRecord.key
    launch.state.store.get? launchedRecord.key = some launchedRecord ∧
      first.result = .ok .upToDate ∧ later.result = .ok .upToDate ∧
      (∀ call ∈ later.calls, call.changes ≠ some .records) ∧
      Unmoved ⟨"apps", "shop"⟩ first.state later.state := by
  obtain ⟨hstored, -, now, hsame⟩ := settled_launch
  obtain ⟨hr, d, -, hd, halike, -⟩ := upToDate_launched
  have hdeleting : launchedRecord.isDeleting = false := alike_launchedRecord.isDeleting
  have hnodup : launchedRecord.metadata.annotations.keys.Nodup := by
    rw [hsame]
    exact List.nodup_nil
  have hkey : releaseKey launchedRecord launchedRecord.releaseName = ⟨"apps", "shop"⟩ := by
    rw [releaseKey_eq_of_alike alike_launchedRecord, alike_launchedRecord.releaseName]
    decide +kernel
  have hcalm : launch.state.Calm := calm_run (calm_sample webTemplate .sample) _
  have hkept := surroundings_run (Controller.sample.reconcile launchedRecord) launch.state
  have hdeployable : Controller.sample.Deployable
      (launch.state.run none (Controller.sample.reconcile launchedRecord)).state d :=
    ⟨_, _, finds_launchedRecord.congr hkept halike⟩
  obtain ⟨hlater, hcalls, hunmoved⟩ := unmoved_of_upToDate (n := 1) hstored hdeleting hnodup hr
    fun i _ => by
      rw [← halike.key]
      exact smooth_afterPasses (calm_run hcalm _) hd (halike.isDeleting.trans hdeleting)
        hdeployable i
  rw [hkey] at hunmoved
  exact ⟨hstored, hr, hlater, hcalls, hunmoved⟩

end Controller

end Chartkeeper
