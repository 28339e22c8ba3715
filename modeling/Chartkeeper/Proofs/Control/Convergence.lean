import Chartkeeper.Proofs.Control.Creation
import Chartkeeper.Proofs.Control.Records
import Chartkeeper.Proofs.Control.Smoothness
/-!
# The host's loop comes to rest

A host runs one pass after the other, each over the record as it is stored then. As long as no
call fails and nothing in the record stands in the way, the first pass leaves the record either
paused or *settled*: its release is what it asks for, and the recorded digest does not contradict
it. A second pass lets a pause take effect that was asked for, and from the third pass on every
pass finds everything up to date. Where something stands in the way, no pass ever succeeds.

In a calm world no call fails as long as the release of the record can be made and described
(`smooth_afterPasses`).
-/

namespace Chartkeeper.Controller

open World Chartkeeper.Composition

variable {k : Controller} {w w' : World} {c d : Composition} {key : String}

/-! ## Where the loop comes to rest -/

/-- The stored record is paused. -/
def Resting (key : String) (w : World) : Prop :=
  ∃ d, w.store.get? key = some d ∧ d.isDeleting = false ∧ d.pause = .paused

/-- The stored record is alike to a given one, its release fits, and no other manifest is
recorded. -/
def Settled (k : Controller) (c : Composition) (w : World) : Prop :=
  ∃ d r, w.Stores d ∧ Alike c d ∧
    w.backend.current? (releaseKey c c.releaseName) = some r ∧ k.Fits w c r ∧
    (d.status.digest = "" ∨ d.status.digest = Digest.ofManifest r.manifest)

/-- The outcome of a pass that went on from an observation. -/
def outcomeOf (o : Observation) : Outcome :=
  if !o.found then .created else if !o.upToDate then .updated else .upToDate

/-! ## One pass -/

/-- A paused record is left as it is. -/
theorem reconcile_of_paused {r : Except Fault Outcome} (hdeleting : c.isDeleting = false)
    (hpause : c.pause = .paused) (h : (k.reconcile c).Ends troubled w r w') :
    r = .ok .upToDate ∧ Same .records w w' := by
  rw [reconcile_of_not_deleting hdeleting, observe_of_paused hpause, Program.bind_assoc] at h
  obtain ⟨_, w₁, hannounce, hr, rfl⟩ := (Task.sure_announce w _ _).ends_bind h
  exact ⟨hr, (Task.leaves_announce .records _ _).same hannounce⟩

theorem settled_of_create (hd : w.Stores d) (halike : Alike c d) (hstatus : d.status = c.status)
    (hpause : c.pause ≠ .paused) (h : (k.create c).Ends troubled w (.ok ()) w') :
    k.Legible w c ∧ Settled k c w' := by
  obtain ⟨r, managed, digest, now, e, hfits, hdescribed, hcurrent, hstored, hce, hwritten⟩ :=
    create_ok hd halike hstatus hpause h
  refine ⟨hdescribed.legible hfits, e, r, hstored, hce, hcurrent,
    hfits.congr (surroundings_ends h) (Alike.refl c), Or.inr ?_⟩
  rw [hwritten, Status.digest_apply]
  exact hdescribed.1

/-- An update lets a pause take effect if one is asked for; otherwise it settles the record. -/
theorem settled_of_update {r : Release} (hd : w.Stores d) (halike : Alike c d)
    (hdeleting : c.isDeleting = false) (hpause : c.pause ≠ .paused)
    (hr : w.backend.current? (releaseKey c c.releaseName) = some r) (hfits : k.Fits w c r)
    (h : (update c).Ends troubled w (.ok ()) w') :
    k.Legible w c ∧ (c.pause = .requested → Resting c.key w') ∧
      (c.pause ≠ .requested → Settled k c w') := by
  obtain ⟨r', managed, digest, now, e, hr', hdescribed, hreleases, hstored, hcases⟩ :=
    update_ok hd halike hpause h
  obtain rfl : r' = r := Option.some.inj (hr'.symm.trans hr)
  refine ⟨hdescribed.legible hfits, ?_⟩
  rcases hcases with ⟨hactive, hce, hwritten⟩ | ⟨hrequested, hpaused, hkept, hkey⟩
  · refine ⟨fun hrequested => ?_, fun _ => ⟨e, r', hstored, hce, ?_, ?_, Or.inr ?_⟩⟩
    · rw [hactive] at hrequested
      exact nomatch hrequested
    · rw [hreleases.current?]
      exact hr
    · exact hfits.congr (surroundings_ends h) (Alike.refl c)
    · rw [hwritten]
      unfold updatedStatus
      rw [Status.digest_apply]
      exact hdescribed.1
  · refine ⟨fun _ => ⟨e, ?_, hkept.trans hdeleting, hpaused⟩, fun hnot => absurd hrequested hnot⟩
    rw [← hkey]
    exact hstored

/-- The stored record is alike to a given one and still has its status, and its release fits but
cannot be read. -/
def Unread (k : Controller) (c : Composition) (w : World) : Prop :=
  ∃ d r, w.Stores d ∧ Alike c d ∧ d.status = c.status ∧
    w.backend.current? (releaseKey c c.releaseName) = some r ∧ k.Fits w c r ∧
    ¬∃ found, Manifest.decode .outline r.manifest = .ok found

/-- What a pass over a record did whose release can be made, as long as no call failed: it went on
from what it found, and left the record resting or settled, or it stopped at reading the release. -/
theorem reconcile_cases {r : Except Fault Outcome} (hstored : w.Stores c)
    (hdeleting : c.isDeleting = false) (hpause : c.pause ≠ .paused) (hc : k.Makeable w c)
    (h : (k.reconcile c).Ends serving w r w') :
    ∃ o w₁ record, Alike c record ∧ record.status = c.status ∧ Found k record w w₁ o ∧
      ((r = .ok (outcomeOf o) ∧ (o ≠ .current → k.Legible w c) ∧
          (o = .stale → c.pause = .requested → Resting c.key w') ∧
          ((o = .stale → c.pause ≠ .requested) → Settled k c w')) ∨
        (o ≠ .current ∧ (∀ outcome, r ≠ .ok outcome) ∧ Unread k c w')) := by
  rw [reconcile_of_not_deleting hdeleting] at h
  obtain ⟨o, w₁, hobserve, h₁⟩ := (sure_observe hstored (Or.inr hc)).ends_bind h
  replace hobserve := troubled_of_serving hobserve
  have hw₁ := surroundings_ends hobserve
  obtain ⟨-, hfound⟩ := (observe_ok hstored hobserve).resolve_left fun hleft => hpause hleft.1
  have halike := alike_marked hpause w.package.definition
  have hstatus := status_marked c w.package.definition
  generalize marked c w.package.definition = record at halike hstatus hfound
  refine ⟨o, w₁, record, halike, hstatus, hfound, ?_⟩
  cases hfound with
  | absent none releases stored =>
      rcases Program.ends_bind.mp h₁ with ⟨fault, hcreate, rfl⟩ | ⟨_, w₂, hcreate, rfl, rfl⟩
      · -- The release was made, and reading it stopped the creation.
        rcases create_stops stored halike hstatus hpause (hc.congr hw₁ (Alike.refl c)) hcreate with
          hok | ⟨rel, e, hfits, hunread, hcurrent, hstored', hce, hkept⟩
        · exact nomatch hok
        · refine Or.inr ⟨nofun, nofun, e, rel, hstored', hce, hkept, hcurrent, ?_, hunread⟩
          exact hfits.congr (surroundings_ends (troubled_of_serving hcreate)) (Alike.refl c)
      · obtain ⟨hlegible, hsettled⟩ :=
          settled_of_create stored halike hstatus hpause (troubled_of_serving hcreate)
        exact Or.inl ⟨rfl, fun _ => hlegible.congr hw₁.symm (Alike.refl c), nofun,
          fun _ => hsettled⟩
  | stale found before after current kept fits upgraded outdated stored =>
      rw [releaseKey_eq_of_alike halike, halike.releaseName] at upgraded
      have hfits : k.Fits w₁ c after := fits.congr hw₁ halike.symm
      rcases Program.ends_bind.mp h₁ with ⟨fault, hupdate, rfl⟩ | ⟨_, w₂, hupdate, rfl, rfl⟩
      · -- The release was upgraded, and reading it stopped the update.
        rcases update_stops hpause upgraded hupdate with hok | ⟨hunread, hrecords, hreleases⟩
        · exact nomatch hok
        · refine Or.inr ⟨nofun, nofun, record, after, hrecords.stores stored, halike, hstatus, ?_,
            hfits.congr (surroundings_ends (troubled_of_serving hupdate)) (Alike.refl c), hunread⟩
          rw [hreleases.current?]
          exact upgraded
      · obtain ⟨hlegible, hresting, hsettled⟩ := settled_of_update stored halike hdeleting hpause
          upgraded hfits (troubled_of_serving hupdate)
        exact Or.inl ⟨rfl, fun _ => hlegible.congr hw₁.symm (Alike.refl c), fun _ => hresting,
          fun hnot => hsettled (hnot rfl)⟩
  | current found before after current kept fits upgraded same now stored =>
      obtain ⟨hr, rfl⟩ := h₁
      rw [releaseKey_eq_of_alike halike, halike.releaseName] at upgraded
      have hsettled : Settled k c w' :=
        ⟨_, after, stored, halike.trans (alike_status record _), upgraded,
          fits.congr hw₁ halike.symm, Or.inr (Status.digest_apply _ _ _)⟩
      exact Or.inl ⟨hr, fun hnot => absurd rfl hnot, nofun, fun _ => hsettled⟩

theorem Unread.not_legible (h : Unread k c w) : ¬k.Legible w c := by
  obtain ⟨d, r, -, -, -, -, hfits, hunread⟩ := h
  exact fun hlegible => hunread (hlegible.decode hfits)

theorem Settled.congr (h : Alike c d) (hs : Settled k d w) : Settled k c w := by
  obtain ⟨e, r, hstored, hde, hcurrent, hfits, hdigest⟩ := hs
  rw [releaseKey_eq_of_alike h, h.releaseName] at hcurrent
  exact ⟨e, r, hstored, h.trans hde, hcurrent, hfits.congr rfl h.symm, hdigest⟩

/-- Over a settled record only a pause that was asked for is out of date: the release is rendered
to what it was before. -/
theorem outdated_of_settled {record : Composition} {found before after : Release}
    (hfound : k.Fits w record found) (hbefore : found.status.isStuck = false → before = found)
    (hafter : k.Fits w record after)
    (hdigest : record.status.digest = "" ∨
      record.status.digest = Digest.ofManifest found.manifest)
    (hout : Outdated record before after) : record.pause = .requested := by
  have hkept : before = found := hbefore (by rw [hfound.status]; rfl)
  subst hkept
  have hsame := hfound.eq hafter
  have hprevious : previousDigest record before = Digest.ofManifest before.manifest := by
    unfold previousDigest
    rcases hdigest with hempty | hrecorded
    · rw [hempty]
      rfl
    · rw [hrecorded]
      split <;> rfl
  rcases hout with hmanifest | hversion | hrequested
  · refine absurd ?_ hmanifest
    rw [hprevious, hsame]
  · refine absurd ?_ hversion
    rw [hsame]
  · exact hrequested

/-- What is not out of date is not asked to pause. -/
theorem active_of_not_outdated {record : Composition} {before after : Release}
    (halike : Alike c record) (hpause : c.pause ≠ .paused) (h : ¬Outdated record before after) :
    c.pause = .active := by
  rw [← halike.pause] at hpause ⊢
  cases hp : record.pause with
  | active => rfl
  | requested => exact absurd (Or.inr (Or.inr hp)) h
  | paused => exact absurd hp hpause

/-- A pass over a settled record lets a pause take effect, or finds everything up to date. -/
theorem reconcile_of_settled {r : Except Fault Outcome} (hstored : w.Stores c)
    (hsettled : Settled k c w) (hdeleting : c.isDeleting = false) (hpause : c.pause ≠ .paused)
    (hc : k.Makeable w c) (hread : k.Legible w c ∨ c.pause = .active)
    (h : (k.reconcile c).Ends serving w r w') :
    (c.pause = .requested ∧ Resting c.key w') ∨
      (c.pause = .active ∧ r = .ok .upToDate ∧ Settled k c w') := by
  obtain ⟨d, rel, hd, hcd, hcurrent, hfits, hdigest⟩ := hsettled
  obtain rfl : d = c := by
    unfold Stores at hd hstored
    rw [hcd.key] at hd
    exact Option.some.inj (hd.symm.trans hstored)
  obtain ⟨o, w₁, record, halike, hstatus, hfound, hcases⟩ :=
    reconcile_cases hstored hdeleting hpause hc h
  rw [← hstatus] at hdigest
  cases hfound with
  | absent none releases stored =>
      rw [releaseKey_eq_of_alike halike, halike.releaseName, hcurrent] at none
      exact nomatch none
  | stale found before after current kept fits upgraded outdated stored =>
      -- The release renders to what it was, so only a pause can have made it stale.
      rw [releaseKey_eq_of_alike halike, halike.releaseName, hcurrent] at current
      obtain rfl := Option.some.inj current
      have hrequested := outdated_of_settled (hfits.congr rfl halike) kept fits hdigest outdated
      rw [halike.pause] at hrequested
      rcases hcases with ⟨-, -, hresting, -⟩ | ⟨-, -, hunread⟩
      · exact Or.inl ⟨hrequested, hresting rfl hrequested⟩
      · have hkept := surroundings_ends (troubled_of_serving h)
        have hactive := hread.resolve_left fun hlegible =>
          hunread.not_legible (hlegible.congr hkept (Alike.refl d))
        rw [hrequested] at hactive
        exact nomatch hactive
  | current found before after current kept fits upgraded same now stored =>
      obtain ⟨rfl, -, -, hsettled⟩ := hcases.resolve_right fun hleft => hleft.1 rfl
      exact Or.inr ⟨active_of_not_outdated halike hpause same, rfl, hsettled nofun⟩

/-! ## What stands in the way -/

/-- Nothing in a record stands in the way of the loop: its release can be made, and can be read
unless nothing asks for that, as no pause is asked for and no other manifest is recorded. -/
structure Tractable (k : Controller) (w : World) (c : Composition) : Prop where
  makeable : k.Makeable w c
  readable : k.Legible w c ∨ (c.pause = .active ∧ ∀ rendered, k.wanted w c = .ok rendered →
    c.status.digest = "" ∨ c.status.digest = Digest.ofManifest rendered.manifest)

/-- No pass over a record whose release cannot be made succeeds, and the record stays what it
is. -/
theorem reconcile_of_not_makeable {r : Except Fault Outcome} (hstored : w.Stores c)
    (hdeleting : c.isDeleting = false) (hpause : c.pause ≠ .paused) (hc : ¬k.Makeable w c)
    (h : (k.reconcile c).Ends serving w r w') :
    (∀ outcome, r ≠ .ok outcome) ∧ Holds (Alike c) w' := by
  have hlasting := lasting_alike hpause
  have hself : Holds (Alike c) w := ⟨c, hstored, Alike.refl c⟩
  rw [reconcile_of_not_deleting hdeleting] at h
  rcases Program.ends_bind.mp h with ⟨fault, hobserve, rfl⟩ | ⟨o, w₁, hobserve, h₁⟩
  · exact ⟨nofun, (keeps_observe hlasting (Alike.refl c) hself (troubled_of_serving hobserve)).1⟩
  · replace hobserve := troubled_of_serving hobserve
    have hafter := (keeps_observe hlasting (Alike.refl c) hself hobserve).1
    -- A release that fits can be made, so none that was found, upgraded or created does.
    have hunfit (record : Composition) (after : Release) (halike : Alike c record) :
        ¬k.Fits w record after :=
      fun hfits => hc (hfits.makeable.congr rfl halike.symm)
    obtain ⟨-, hfound⟩ := (observe_ok hstored hobserve).resolve_left fun hleft => hpause hleft.1
    have halike := alike_marked hpause w.package.definition
    have hstatus := status_marked c w.package.definition
    generalize marked c w.package.definition = record at halike hstatus hfound
    cases hfound with
    | absent none releases stored =>
        rcases Program.ends_bind.mp h₁ with ⟨fault, hcreate, rfl⟩ | ⟨_, w₂, hcreate, -⟩
        · exact ⟨nofun,
            (keeps_create hlasting (Alike.refl c) hafter (troubled_of_serving hcreate)).1⟩
        · obtain ⟨after, -, -, -, -, hfits, -⟩ :=
            create_ok stored halike hstatus hpause (troubled_of_serving hcreate)
          exact absurd (hfits.congr (surroundings_ends hobserve).symm (Alike.refl c))
            (hunfit c after (Alike.refl c))
    | stale found before after current kept fits => exact absurd fits (hunfit record after halike)
    | current found before after current kept fits => exact absurd fits (hunfit record after halike)

/-- The stored record is one in whose way something stands. -/
def Blocked (k : Controller) (key : String) (w : World) : Prop :=
  ∃ d, w.store.get? key = some d ∧ d.key = key ∧ d.isDeleting = false ∧ d.pause ≠ .paused ∧
    ¬k.Tractable w d

/-- No pass over such a record succeeds, and it leaves one behind. -/
theorem reconcile_of_not_tractable {r : Except Fault Outcome} (hstored : w.Stores c)
    (hdeleting : c.isDeleting = false) (hpause : c.pause ≠ .paused) (hc : ¬k.Tractable w c)
    (h : (k.reconcile c).Ends serving w r w') :
    (∀ outcome, r ≠ .ok outcome) ∧ Blocked k c.key w' := by
  have hkept := surroundings_ends (troubled_of_serving h)
  have hblocked {e : Composition} (he : w'.Stores e) (hce : Alike c e)
      (hstands : ¬k.Tractable w' e) : Blocked k c.key w' :=
    ⟨e, hce.key ▸ he, hce.key, hce.isDeleting.trans hdeleting, by rw [hce.pause]; exact hpause,
      hstands⟩
  by_cases hmakeable : k.Makeable w c
  · obtain ⟨o, w₁, record, halike, hstatus, hfound, hcases⟩ :=
      reconcile_cases hstored hdeleting hpause hmakeable h
    rcases hcases with ⟨-, hlegible, -, -⟩ | ⟨-, hfails, hunread⟩
    · -- A pass that went on has read the release, or had no need to.
      refine absurd ⟨hmakeable, ?_⟩ hc
      cases hfound with
      | absent => exact Or.inl (hlegible nofun)
      | stale => exact Or.inl (hlegible nofun)
      | current found before after current kept fits upgraded same now stored =>
          refine Or.inr ⟨active_of_not_outdated halike hpause same, fun rendered hwanted => ?_⟩
          obtain ⟨rendered', hwanted', hafter⟩ := fits
          rw [wanted_eq rfl halike] at hwanted'
          obtain rfl : rendered' = rendered := Except.ok.inj (hwanted'.symm.trans hwanted)
          have hrecorded := recorded_of_not_outdated same
          rw [hstatus, hafter] at hrecorded
          exact hrecorded
    · obtain ⟨e, rel, he, hce, hsame, -⟩ := id hunread
      refine ⟨hfails, hblocked he hce fun htractable => hc ⟨hmakeable, ?_⟩⟩
      refine htractable.readable.imp (fun hlegible => ?_) fun hrecorded => ?_
      · exact hlegible.congr hkept.symm hce.symm
      · rw [hce.pause, hsame, wanted_eq hkept hce] at hrecorded
        exact hrecorded
  · obtain ⟨hfails, e, he, hce⟩ :=
      reconcile_of_not_makeable hstored hdeleting hpause hmakeable h
    refine ⟨hfails, hblocked he hce fun htractable => hmakeable ?_⟩
    exact htractable.makeable.congr hkept.symm hce.symm

/-! ## The loop -/

end Chartkeeper.Controller

namespace Chartkeeper.World

/-- One pass of the host's loop: the record that is stored under a key is reconciled. -/
def pass (k : Controller) (key : String) (w : World) : Run Port World Outcome :=
  match w.store.get? key with
  | some c => w.run none (k.reconcile c)
  | none => w.run none (.fail (.persistence "get" (key ++ " not found")))

/-- The world after some passes. -/
def afterPasses (k : Controller) (key : String) : Nat → World → World
  | 0, w => w
  | n + 1, w => ((afterPasses k key n w).pass k key).state

end Chartkeeper.World

namespace Chartkeeper.Controller

open World Chartkeeper.Composition

variable {k : Controller} {w : World} {c : Composition}

theorem pass_of_stored {d : Composition} {key : String} (hd : w.store.get? key = some d) :
    w.pass k key = w.run none (k.reconcile d) := by
  unfold World.pass
  rw [hd]

theorem ends_pass {d : Composition} {key : String} (hd : w.store.get? key = some d)
    (hsmooth : (w.pass k key).Smooth machine) :
    (k.reconcile d).Ends serving w (w.pass k key).result (w.pass k key).state := by
  rw [pass_of_stored hd] at hsmooth ⊢
  exact hsmooth.ends

theorem surroundings_pass (k : Controller) (key : String) (w : World) :
    (w.pass k key).state.surroundings = w.surroundings := by
  unfold World.pass
  split
  · exact surroundings_run _ w
  · exact surroundings_run _ w

theorem surroundings_afterPasses (k : Controller) (key : String) (w : World) :
    ∀ n, (w.afterPasses k key n).surroundings = w.surroundings
  | 0 => rfl
  | n + 1 => (surroundings_pass k key _).trans (surroundings_afterPasses k key w n)

/-- The loop has come to rest: the record is paused, or it is settled and no pause is asked
for. -/
def AtRest (k : Controller) (c : Composition) (w : World) : Prop :=
  Resting c.key w ∨ (c.pause = .active ∧ Settled k c w)

theorem pass_of_resting {key : String} (h : Resting key w) :
    (w.pass k key).result = .ok .upToDate ∧ Resting key (w.pass k key).state := by
  obtain ⟨d, hd, hdeleting, hpause⟩ := h
  rw [pass_of_stored hd]
  have hends := Program.ends_run (m := machine) (k.reconcile d) w 0
  obtain ⟨hr, hrecords⟩ := reconcile_of_paused hdeleting hpause (troubled_of_answers hends)
  refine ⟨hr, d, ?_, hdeleting, hpause⟩
  rw [← hd]
  exact congrArg (Assoc.get? key) hrecords

theorem pass_of_settled (hsettled : Settled k c w) (hdeleting : c.isDeleting = false)
    (hpause : c.pause ≠ .paused) (hc : k.Makeable w c) (hread : k.Legible w c ∨ c.pause = .active)
    (hsmooth : (w.pass k c.key).Smooth machine) :
    (c.pause = .requested ∧ Resting c.key (w.pass k c.key).state) ∨
      (c.pause = .active ∧ (w.pass k c.key).result = .ok .upToDate ∧
        Settled k c (w.pass k c.key).state) := by
  obtain ⟨d, -, hd, hcd, -⟩ := id hsettled
  have hstored : w.store.get? c.key = some d := by
    rw [← hcd.key]
    exact hd
  have hends := ends_pass hstored hsmooth
  rw [← hcd.pause] at hpause hread ⊢
  rw [← hcd.key] at hends ⊢
  rcases reconcile_of_settled hd (hsettled.congr hcd.symm) (hcd.isDeleting.trans hdeleting) hpause
    (hc.congr rfl hcd) (hread.imp_left fun hlegible => hlegible.congr rfl hcd) hends with
    hrequested | ⟨hactive, hr, hafter⟩
  · exact Or.inl hrequested
  · exact Or.inr ⟨hactive, hr, hafter.congr hcd⟩

/-- The first pass leads to where the loop comes to rest, up to a pause that was asked for. -/
theorem pass_of_tractable (hstored : w.store.get? c.key = some c)
    (hdeleting : c.isDeleting = false) (hpause : c.pause ≠ .paused) (hc : k.Tractable w c)
    (hsmooth : (w.pass k c.key).Smooth machine) :
    Resting c.key (w.pass k c.key).state ∨ Settled k c (w.pass k c.key).state := by
  have hends := ends_pass hstored hsmooth
  obtain ⟨o, -, -, -, -, -, ⟨-, -, hresting, hsettled⟩ | ⟨-, -, hunread⟩⟩ :=
    reconcile_cases hstored hdeleting hpause hc.makeable hends
  · by_cases hboth : o = .stale ∧ c.pause = .requested
    · exact Or.inl (hresting hboth.1 hboth.2)
    · exact Or.inr (hsettled fun hstale hrequested => hboth ⟨hstale, hrequested⟩)
  · -- The pass stopped, but what it would have recorded is not contradicted either.
    have hkept := surroundings_ends (troubled_of_serving hends)
    obtain ⟨-, hdigest⟩ := hc.readable.resolve_left fun hlegible =>
      hunread.not_legible (hlegible.congr hkept (Alike.refl c))
    obtain ⟨d, r, hd, hcd, hstatus, hcurrent, hfits, -⟩ := hunread
    obtain ⟨rendered, hwanted, hr⟩ := hfits.congr hkept.symm (Alike.refl c)
    refine Or.inr ⟨d, r, hd, hcd, hcurrent, hfits, ?_⟩
    rw [hstatus, hr]
    exact hdigest rendered hwanted

theorem pass_of_atRest (hrest : AtRest k c w) (hdeleting : c.isDeleting = false)
    (hc : c.pause = .paused ∨ k.Makeable w c) (hsmooth : (w.pass k c.key).Smooth machine) :
    (w.pass k c.key).result = .ok .upToDate ∧ AtRest k c (w.pass k c.key).state := by
  rcases hrest with hresting | ⟨hactive, hsettled⟩
  · obtain ⟨hr, hafter⟩ := pass_of_resting hresting
    exact ⟨hr, Or.inl hafter⟩
  · have hpause : c.pause ≠ .paused := by
      rw [hactive]
      exact nofun
    rcases pass_of_settled hsettled hdeleting hpause (hc.resolve_left hpause) (Or.inr hactive)
      hsmooth with ⟨hrequested, -⟩ | ⟨-, hr, hafter⟩
    · rw [hactive] at hrequested
      exact nomatch hrequested
    · exact ⟨hr, Or.inr ⟨hactive, hafter⟩⟩

/-- After two passes the loop is at rest, and stays there. -/
theorem atRest_afterPasses (hstored : w.store.get? c.key = some c)
    (hdeleting : c.isDeleting = false) (hc : c.pause = .paused ∨ k.Tractable w c) :
    ∀ n, (∀ i < n + 2, ((w.afterPasses k c.key i).pass k c.key).Smooth machine) →
      AtRest k c (w.afterPasses k c.key (n + 2))
  | 0, hsmooth => by
      -- The first pass settles the record, and the second lets a pause take effect.
      by_cases hpause : c.pause = .paused
      · have hfirst := (pass_of_resting (k := k) ⟨c, hstored, hdeleting, hpause⟩).2
        exact Or.inl (pass_of_resting hfirst).2
      · have htractable := hc.resolve_left hpause
        have hkept := surroundings_pass k c.key w
        rcases pass_of_tractable hstored hdeleting hpause htractable (hsmooth 0 (by omega)) with
          hresting | hsettled
        · exact Or.inl (pass_of_resting hresting).2
        · rcases pass_of_settled hsettled hdeleting hpause
            (htractable.makeable.congr hkept (Alike.refl c))
            (htractable.readable.imp (fun hlegible => hlegible.congr hkept (Alike.refl c)) And.left)
            (hsmooth 1 (by omega)) with hrequested | ⟨hactive, -, hafter⟩
          · exact Or.inl hrequested.2
          · exact Or.inr ⟨hactive, hafter⟩
  | n + 1, hsmooth => by
      have hrest := atRest_afterPasses hstored hdeleting hc n
        fun i hi => hsmooth i (by omega)
      refine (pass_of_atRest hrest hdeleting ?_ (hsmooth (n + 2) (by omega))).2
      exact hc.imp_right fun htractable =>
        htractable.makeable.congr (surroundings_afterPasses k c.key w (n + 2)) (Alike.refl c)

theorem pass_of_blocked {key : String} (h : Blocked k key w)
    (hsmooth : (w.pass k key).Smooth machine) :
    (∀ outcome, (w.pass k key).result ≠ .ok outcome) ∧ Blocked k key (w.pass k key).state := by
  obtain ⟨d, hd, rfl, hdeleting, hpause, hstands⟩ := h
  exact reconcile_of_not_tractable hd hdeleting hpause hstands (ends_pass hd hsmooth)

theorem blocked_afterPasses {key : String} (h : Blocked k key w) :
    ∀ n, (∀ i < n, ((w.afterPasses k key i).pass k key).Smooth machine) →
      Blocked k key (w.afterPasses k key n)
  | 0, _ => h
  | n + 1, hsmooth =>
      have hbefore := blocked_afterPasses h n fun i hi => hsmooth i (by omega)
      (pass_of_blocked hbefore (hsmooth n (by omega))).2

/-- Where something stands in the way of a record, no pass succeeds, not even the first. -/
theorem not_ok_afterPasses {n : Nat} (hstored : w.store.get? c.key = some c)
    (hdeleting : c.isDeleting = false) (hc : ¬(c.pause = .paused ∨ k.Tractable w c))
    (hsmooth : ∀ i ≤ n, ((w.afterPasses k c.key i).pass k c.key).Smooth machine)
    (outcome : Outcome) : ((w.afterPasses k c.key n).pass k c.key).result ≠ .ok outcome := by
  obtain ⟨hpause, hstands⟩ := not_or.mp hc
  have hblocked : Blocked k c.key w := ⟨c, hstored, rfl, hdeleting, hpause, hstands⟩
  have hlater := blocked_afterPasses hblocked n fun i hi => hsmooth i (by omega)
  exact (pass_of_blocked hlater (hsmooth n (Nat.le_refl n))).1 outcome

/-! ## Loops in which no call fails -/

theorem Deployable.tractable (h : k.Deployable w c) : k.Tractable w c :=
  ⟨h.makeable, Or.inl h.legible⟩

/-- The stored record is paused, or its release can be made and described. -/
def Unhindered (k : Controller) (key : String) (w : World) : Prop :=
  Resting key w ∨ ∃ d, w.Stores d ∧ d.key = key ∧ d.isDeleting = false ∧ k.Deployable w d

/-- In a calm world no call of a pass over such a record fails, and it leaves one behind. -/
theorem pass_of_unhindered {key : String} (hcalm : w.Calm) (h : Unhindered k key w) :
    (w.pass k key).Smooth machine ∧ (w.pass k key).state.Calm ∧
      Unhindered k key (w.pass k key).state := by
  have of_resting (h : Resting key w) : (w.pass k key).Smooth machine ∧
      (w.pass k key).state.Calm ∧ Unhindered k key (w.pass k key).state := by
    have hafter := (pass_of_resting (k := k) h).2
    obtain ⟨d, hd, hdeleting, hpause⟩ := h
    rw [pass_of_stored hd] at hafter ⊢
    exact ⟨(unfailing_reconcile_of_paused hcalm hdeleting hpause).smooth,
      calm_run hcalm _, Or.inl hafter⟩
  rcases h with hresting | ⟨d, hd, rfl, hdeleting, hdeployable⟩
  · exact of_resting hresting
  by_cases hpause : d.pause = .paused
  · exact of_resting ⟨d, hd, hdeleting, hpause⟩
  have hsmooth : (w.pass k d.key).Smooth machine := by
    rw [pass_of_stored hd]
    exact (unfailing_reconcile hcalm hd hdeleting hdeployable).smooth
  have hafter := pass_of_tractable hd hdeleting hpause hdeployable.tractable hsmooth
  have hkept := surroundings_pass k d.key w
  refine ⟨hsmooth, ?_, hafter.imp_right fun hsettled => ?_⟩
  · rw [pass_of_stored hd]
    exact calm_run hcalm _
  · obtain ⟨e, -, he, hde, -⟩ := hsettled
    exact ⟨e, he, hde.key, hde.isDeleting.trans hdeleting, hdeployable.congr hkept hde⟩

theorem unhindered_afterPasses {key : String} (hcalm : w.Calm) (h : Unhindered k key w) :
    ∀ n, (w.afterPasses k key n).Calm ∧ Unhindered k key (w.afterPasses k key n)
  | 0 => ⟨hcalm, h⟩
  | n + 1 => by
      obtain ⟨hbefore, hrecord⟩ := unhindered_afterPasses hcalm h n
      exact (pass_of_unhindered hbefore hrecord).2

/-- In a calm world no call fails in any pass over a record that can be deployed. -/
theorem smooth_afterPasses (hcalm : w.Calm) (hstored : w.Stores c)
    (hdeleting : c.isDeleting = false) (hdeployable : k.Deployable w c) (n : Nat) :
    ((w.afterPasses k c.key n).pass k c.key).Smooth machine := by
  obtain ⟨hbefore, hrecord⟩ := unhindered_afterPasses hcalm
    (Or.inr ⟨c, hstored, rfl, hdeleting, hdeployable⟩) n
  exact (pass_of_unhindered hbefore hrecord).1

/-- In a calm world a creation settles such a record, and records what it found. -/
theorem settled_of_create_calm {managed : List ManagedResource} {digest : String}
    (hcalm : w.Calm) (hc : w.Stores c) (hpause : c.pause ≠ .paused)
    (hfinds : k.Finds w c managed digest) :
    ∃ now, (w.run none (k.create c)).state.Stores (installed c w.package managed digest now) ∧
      Settled k (installed c w.package managed digest now) (w.run none (k.create c)).state := by
  have hrun := Program.ends_run (m := machine) (k.create c) w 0
  obtain ⟨_, hresult⟩ := sure_create_of_calm hcalm hc hpause ⟨managed, digest, hfinds⟩ hrun
  rw [hresult] at hrun
  replace hrun := troubled_of_answers hrun
  obtain ⟨-, hsettled⟩ := settled_of_create hc (Alike.refl c) rfl hpause hrun
  obtain ⟨r, managed', digest', now, hfits, hdescribed, -, hstored⟩ := create_stored hc hpause hrun
  obtain ⟨rfl, rfl⟩ := hfinds.eq ⟨r, hfits, hdescribed⟩
  exact ⟨now, hstored, hsettled.congr (alike_installed hpause _ _ _ _).symm⟩

/-- A pass over a settled record finds everything up to date if no pause is asked for. -/
theorem upToDate_of_settled (hcalm : w.Calm) (hc : w.Stores c) (hdeleting : c.isDeleting = false)
    (hactive : c.pause = .active) (hdeployable : k.Deployable w c) (hsettled : Settled k c w) :
    (w.run none (k.reconcile c)).result = .ok .upToDate ∧
      Settled k c (w.run none (k.reconcile c)).state := by
  have hpause : c.pause ≠ .paused := by
    rw [hactive]
    exact nofun
  have hends := unfailing_reconcile hcalm hc hdeleting hdeployable (Program.ends_run _ w 0)
  rcases reconcile_of_settled hc hsettled hdeleting hpause hdeployable.makeable
    (Or.inr hactive) hends with ⟨hrequested, -⟩ | ⟨-, hr, hafter⟩
  · rw [hactive] at hrequested
    exact nomatch hrequested
  · exact ⟨hr, hafter⟩

/-! ## When the loop comes to rest -/

/-- **When the loop comes to rest.** As long as no call fails, every pass from the third on finds
everything up to date if the record is paused or nothing stands in its way. Otherwise no pass at
all succeeds. A pause that was asked for is in effect from the third pass on. -/
theorem upToDate_of_third_pass {n : Nat} (hn : 2 ≤ n) (hstored : w.store.get? c.key = some c)
    (hdeleting : c.isDeleting = false)
    (hsmooth : ∀ i ≤ n, ((w.afterPasses k c.key i).pass k c.key).Smooth machine) :
    (((w.afterPasses k c.key n).pass k c.key).result = .ok .upToDate ↔
        c.pause = .paused ∨ k.Tractable w c) ∧
      (¬(c.pause = .paused ∨ k.Tractable w c) → ∀ i ≤ n, ∀ outcome,
        ((w.afterPasses k c.key i).pass k c.key).result ≠ .ok outcome) ∧
      (((w.afterPasses k c.key n).pass k c.key).result = .ok .upToDate →
        ∃ d, ((w.afterPasses k c.key n).pass k c.key).state.store.get? c.key = some d ∧
          (c.wantsPause = true → d.pause = .paused)) := by
  obtain ⟨m, rfl⟩ := Nat.exists_eq_add_of_le' hn
  have hthird (hc : c.pause = .paused ∨ k.Tractable w c) :
      ((w.afterPasses k c.key (m + 2)).pass k c.key).result = .ok .upToDate ∧
        AtRest k c ((w.afterPasses k c.key (m + 2)).pass k c.key).state := by
    have hrest := atRest_afterPasses hstored hdeleting hc m fun i hi => hsmooth i (by omega)
    have hmakeable : c.pause = .paused ∨ k.Makeable (w.afterPasses k c.key (m + 2)) c :=
      hc.imp_right fun htractable =>
        htractable.makeable.congr (surroundings_afterPasses k c.key w (m + 2)) (Alike.refl c)
    exact pass_of_atRest hrest hdeleting hmakeable (hsmooth (m + 2) (by omega))
  have hnever (hc : ¬(c.pause = .paused ∨ k.Tractable w c)) (i : Nat) (hi : i ≤ m + 2)
      (outcome : Outcome) : ((w.afterPasses k c.key i).pass k c.key).result ≠ .ok outcome :=
    not_ok_afterPasses hstored hdeleting hc (fun j hj => hsmooth j (by omega)) outcome
  have hnecessary (hr : ((w.afterPasses k c.key (m + 2)).pass k c.key).result = .ok .upToDate) :
      c.pause = .paused ∨ k.Tractable w c :=
    Classical.byContradiction fun hc => hnever hc (m + 2) (Nat.le_refl _) .upToDate hr
  refine ⟨⟨hnecessary, fun hc => (hthird hc).1⟩, hnever, fun hr => ?_⟩
  rcases (hthird (hnecessary hr)).2 with ⟨d, hd, -, hpaused⟩ | ⟨hactive, d, -, hd, hcd, -⟩
  · exact ⟨d, hd, fun _ => hpaused⟩
  · unfold Stores at hd
    rw [hcd.key] at hd
    refine ⟨d, hd, fun hwants => ?_⟩
    rw [pause_eq_active_iff.mp hactive] at hwants
    exact nomatch hwants

/-- A new record for which a pause is asked. -/
def pauseAsked : Composition :=
  Composition.sample.withAnnotation pauseAnnotation "true"

/-- The world in which it is stored, with a chart of one object. -/
def askedWorld : World := World.sample webTemplate pauseAsked

theorem deployable_pauseAsked : Controller.sample.Deployable askedWorld pauseAsked :=
  ⟨[webResource], _, finds_webFields (by decide +kernel)⟩

/-- The record is created, then paused, then left alone. -/
theorem upToDate_of_third_pass_pauseAsked :
    askedWorld.store.get? pauseAsked.key = some pauseAsked ∧
      ((askedWorld.afterPasses .sample pauseAsked.key 2).pass .sample pauseAsked.key).result =
        .ok .upToDate ∧
      ∃ d, ((askedWorld.afterPasses .sample pauseAsked.key 2).pass
        .sample pauseAsked.key).state.store.get? pauseAsked.key = some d ∧ d.pause = .paused := by
  have hstored : askedWorld.store.get? pauseAsked.key = some pauseAsked :=
    sample_stores webTemplate pauseAsked
  have hdeleting : pauseAsked.isDeleting = false := by decide +kernel
  have hwants : pauseAsked.wantsPause = true := by decide +kernel
  have hcalm : askedWorld.Calm := calm_sample webTemplate pauseAsked
  obtain ⟨hiff, -, hafter⟩ := upToDate_of_third_pass (Nat.le_refl 2) hstored hdeleting
    fun i _ => smooth_afterPasses hcalm hstored hdeleting deployable_pauseAsked i
  have hr := hiff.mpr (Or.inr deployable_pauseAsked.tractable)
  obtain ⟨d, hd, hpaused⟩ := hafter hr
  exact ⟨hstored, hr, d, hd, hpaused hwants⟩

/-- A record whose spec is a text. -/
def textSpec : Composition :=
  Composition.sample.withSpec (.str "large")

/-- **A record may stand in its own way.** No pass over this one succeeds, although no call
fails. -/
theorem third_pass_of_textSpec :
    (World.sample "" textSpec).store.get? textSpec.key = some textSpec ∧
      textSpec.isDeleting = false ∧
      (∀ i ≤ 2, (((World.sample "" textSpec).afterPasses .sample textSpec.key i).pass
        .sample textSpec.key).Smooth machine) ∧
      (((World.sample "" textSpec).afterPasses .sample textSpec.key 2).pass
        .sample textSpec.key).result ≠ .ok .upToDate := by
  have hfails : (((World.sample "" textSpec).afterPasses .sample textSpec.key 2).pass
      .sample textSpec.key).result.toOption = none := by decide +kernel
  refine ⟨sample_stores "" textSpec, by decide +kernel, by decide +kernel, fun hr => ?_⟩
  rw [hr] at hfails
  exact nomatch hfails

end Chartkeeper.Controller
