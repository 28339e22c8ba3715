import Chartkeeper.Proofs.Control.Changes
/-!
# Whether drift is noticed twice

To observe a record is to upgrade its release, so what was out of date is gone as soon as it is
noticed. A pass goes on to update the record right away; here it stops in between, and the record
is observed again, and again.

- `outdated_iff_pending`: once the release is what the record asks for, only what the record itself
  says can still be out of date, namely a recorded digest of another manifest, or a pause that was
  asked for.
- `verdict_of_stale`: so every later observation finds the record out of date exactly in that case.
  Where no digest is recorded, or only the version of the chart changed, the drift is forgotten.
-/

namespace Chartkeeper.Controller

open World Chartkeeper.Composition

variable {k : Controller} {w w' w'' : World} {c d : Composition} {r : Release} {P : Prop}

/-! ## What is left of a drift -/

/-- The record itself says that it is out of date, although its release is not. -/
def Pending (c : Composition) (r : Release) : Prop :=
  (c.status.digest ≠ "" ∧ c.status.digest ≠ Digest.ofManifest r.manifest) ∨ c.pause = .requested

instance (c : Composition) (r : Release) : Decidable (Pending c r) :=
  inferInstanceAs (Decidable ((_ ∧ _) ∨ _))

theorem pending_congr {r' : Release} (hdigest : d.status.digest = c.status.digest)
    (hpause : d.pause = c.pause) (hmanifest : r'.manifest = r.manifest) :
    Pending d r' ↔ Pending c r := by
  unfold Pending
  rw [hdigest, hpause, hmanifest]

/-- An upgrade to the same release changes nothing, so it brings no evidence of its own. -/
theorem outdated_iff_pending {before after : Release} (hbefore : k.Fits w c before)
    (hafter : k.Fits w c after) : Outdated c before after ↔ Pending c after := by
  have hsame := hbefore.eq hafter
  have hmanifest : after.manifest = before.manifest := by rw [hsame]
  have hversion : before.chartVersion = after.chartVersion := by rw [hsame]
  unfold Outdated Pending previousDigest
  rw [hmanifest]
  by_cases hempty : c.status.digest = ""
  · simp [hempty, hversion]
  · simp only [String.isEmpty_iff, hempty, hversion, if_false, ne_eq, not_false_eq_true,
      not_true_eq_false, false_or, true_and]
    rw [eq_comm]

/-! ## Observing again -/

/-- The worlds that observing the stored record leads to, again and again, each time to the end. -/
inductive Observed (k : Controller) (key : String) (w : World) : World → Prop where
  | none : Observed k key w w
  | again {w' w'' : World} {c : Composition} {o : Observation} (before : Observed k key w w')
      (stored : w'.store.get? key = some c)
      (run : (k.observe c).Ends troubled w' (.ok o) w'') : Observed k key w w''

/-- The release of the stored record is what a given one asks for, and whether an update is pending
is settled. -/
def Watched (k : Controller) (c : Composition) (P : Prop) (w : World) : Prop :=
  ∃ d r, w.Stores d ∧ Alike c d ∧
    w.backend.current? (releaseKey c c.releaseName) = some r ∧ k.Fits w c r ∧ (Pending d r ↔ P)

theorem Watched.stored (h : Watched k c P w) :
    ∃ d, w.store.get? c.key = some d ∧ w.Stores d ∧ Alike c d ∧ k.Makeable w d := by
  obtain ⟨d, r, hd, halike, -, hfits, -⟩ := h
  exact ⟨d, halike.key ▸ hd, hd, halike, hfits.makeable.congr rfl halike⟩

/-- The first observation settles whether an update is pending. -/
theorem watched_of_stale (hc : w.Stores c) (hpause : c.pause ≠ .paused)
    (h : (k.observe c).Ends troubled w (.ok .stale) w') :
    ∃ r, w'.backend.current? (releaseKey c c.releaseName) = some r ∧
      Watched k c (Pending c r) w' := by
  have hw := surroundings_ends h
  have halike := alike_marked hpause w.package.definition
  have hstatus := status_marked c w.package.definition
  obtain ⟨-, hfound⟩ := (observe_ok hc h).resolve_left fun hleft => hpause hleft.1
  generalize marked c w.package.definition = record at halike hstatus hfound
  cases hfound with
  | stale found before after current kept fits upgraded outdated stored =>
      rw [releaseKey_eq_of_alike halike, halike.releaseName] at upgraded
      refine ⟨after, upgraded, record, after, stored, halike, upgraded,
        fits.congr hw halike.symm, ?_⟩
      exact pending_congr (by rw [hstatus]) halike.pause rfl

/-- **One more observation** finds the record out of date exactly if an update is pending, and
changes nothing about that. -/
theorem observe_of_watched {o : Observation} (hpause : c.pause ≠ .paused)
    (hwatched : Watched k c P w) (hd : w.store.get? c.key = some d)
    (h : (k.observe d).Ends troubled w (.ok o) w') :
    ((o = .stale ∧ P) ∨ (o = .current ∧ ¬P)) ∧ Watched k c P w' := by
  obtain ⟨e, r, he, hce, hcurrent, hfits, hpending⟩ := hwatched
  obtain rfl : e = d := by
    unfold Stores at he
    rw [hce.key] at he
    exact Option.some.inj (he.symm.trans hd)
  have hw := surroundings_ends h
  rw [← hce.pause] at hpause
  have halike := alike_marked hpause w.package.definition
  have hstatus := status_marked e w.package.definition
  obtain ⟨-, hfound⟩ := (observe_ok he h).resolve_left fun hleft => hpause hleft.1
  generalize marked e w.package.definition = record at halike hstatus hfound
  have hrecord : Alike c record := hce.trans halike
  have hkey : releaseKey record record.releaseName = releaseKey c c.releaseName := by
    rw [releaseKey_eq_of_alike hrecord, hrecord.releaseName]
  -- The release fits before and after, so the two observations compare the same manifests.
  have hsame {found before after : Release}
      (hfound : w.backend.current? (releaseKey record record.releaseName) = some found)
      (hkept : found.status.isStuck = false → before = found) (hafter : k.Fits w record after) :
      Outdated record before after ↔ P := by
    rw [hkey, hcurrent] at hfound
    obtain rfl := Option.some.inj hfound
    obtain rfl : before = r := hkept (by rw [hfits.status]; rfl)
    have hbefore := hfits.congr rfl hrecord
    rw [outdated_iff_pending hbefore hafter, ← hpending]
    exact pending_congr (by rw [hstatus]) halike.pause (by rw [hbefore.eq hafter])
  cases hfound with
  | absent none releases stored =>
      rw [hkey, hcurrent] at none
      exact nomatch none
  | stale found before after current kept fits upgraded outdated stored =>
      have hp : P := (hsame current kept fits).mp outdated
      refine ⟨Or.inl ⟨rfl, hp⟩, record, after, stored, hrecord, hkey ▸ upgraded,
        fits.congr hw hrecord.symm, ?_⟩
      rw [← hpending]
      have hbefore := hfits.congr rfl hrecord
      exact pending_congr (by rw [hstatus]) halike.pause (by rw [hbefore.eq fits])
  | current found before after current kept fits upgraded same now stored =>
      have hp : ¬P := mt (hsame current kept fits).mpr same
      refine ⟨Or.inr ⟨rfl, hp⟩, _, after, stored, hrecord.trans (alike_status record _),
        hkey ▸ upgraded, fits.congr hw hrecord.symm, ?_⟩
      have hdigest : (upToDate record w.package before after now).status.digest =
          Digest.ofManifest after.manifest := Status.digest_apply _ _ _
      -- The status that was written carries the digest of this very manifest.
      constructor
      · rintro (⟨-, hother⟩ | hrequested)
        · exact absurd hdigest hother
        · exact absurd (Or.inr (Or.inr hrequested)) same
      · intro h
        exact absurd h hp

/-- So do any number of observations. -/
theorem Observed.watched (h : Observed k c.key w w') (hpause : c.pause ≠ .paused)
    (hwatched : Watched k c P w) : Watched k c P w' := by
  induction h with
  | none => exact hwatched
  | again before stored run ih => exact (observe_of_watched hpause ih stored run).2

/-- **What a drift verdict is worth.** After a record was found out of date and was not updated,
every observation that ends well finds it out of date again if the record says so itself, and up to
date otherwise; and as long as no call fails, it does end well. -/
theorem verdict_of_stale (hstored : w.store.get? c.key = some c) (hpause : c.pause ≠ .paused)
    (h : (k.observe c).Ends troubled w (.ok .stale) w') (hmany : Observed k c.key w' w'') :
    ∃ d r, w''.store.get? c.key = some d ∧
      w'.backend.current? (releaseKey c c.releaseName) = some r ∧
      (∀ o t, (k.observe d).Ends troubled w'' (.ok o) t →
        o = if Pending c r then .stale else .current) ∧
      ∀ result t, (k.observe d).Ends serving w'' result t → ∃ o, result = .ok o := by
  obtain ⟨r, hr, hwatched⟩ := watched_of_stale hstored hpause h
  have hlater := hmany.watched hpause hwatched
  obtain ⟨d, hd, hstored', -, hmakeable⟩ := hlater.stored
  refine ⟨d, r, hd, hr, ?_, ?_⟩
  · intro o t hagain
    rcases (observe_of_watched hpause hlater hd hagain).1 with ⟨rfl, hp⟩ | ⟨rfl, hp⟩
    · rw [if_pos hp]
    · rw [if_neg hp]
  · intro result t hagain
    exact sure_observe hstored' (Or.inr hmakeable) hagain

/-- The observation of a record. -/
def firstLook (w : World) (c : Composition) : Run Port World Observation :=
  w.run none (Controller.sample.observe c)

/-- The record that is stored then. -/
def foundRecord (w : World) (c : Composition) : Composition :=
  ((firstLook w c).state.store.get? c.key).getD c

/-- The observation after that. -/
def secondLook (w : World) (c : Composition) : Run Port World Observation :=
  (firstLook w c).state.run none (Controller.sample.observe (foundRecord w c))

/-- A record whose status holds nothing but a digest. -/
def digested (digest : String) : Composition :=
  { Composition.sample with status := { Status.empty with digest } }

/-- A world with a release of that record, whose chart renders nothing now. -/
def drifted (digest manifest : String) : World :=
  (World.sample "" (digested digest)).modifyBackend
    (Backend.seed · (.deployed ⟨"apps", "shop"⟩ "web" "1.0.0" manifest))

/-- A recorded digest keeps the drift in mind. -/
theorem verdict_of_stale_digested :
    let w := drifted "1f616796b4505e74" ""
    let c := digested "1f616796b4505e74"
    w.store.get? c.key = some c ∧ (firstLook w c).result = .ok .stale ∧
      (secondLook w c).result = .ok .stale := by
  intro w c
  have hstored : w.store.get? c.key = some c := sample_stores "" c
  have hfirst : (firstLook w c).result = .ok .stale := Fault.eq_ok_of_toOption (by decide +kernel)
  have hcurrent : (firstLook w c).state.backend.current? (releaseKey c c.releaseName) =
      some { Release.deployed ⟨"apps", "shop"⟩ "web" "1.0.0" "" with revision := 2 } := by
    decide +kernel
  have hpending : Pending c
      { Release.deployed ⟨"apps", "shop"⟩ "web" "1.0.0" "" with revision := 2 } := by
    decide +kernel
  have hends : (secondLook w c).result.toOption.isSome = true := by decide +kernel
  have hpause : c.pause ≠ .paused := by decide
  -- The world becomes a variable before the theorem is applied, so that no run is evaluated then.
  clear_value w c
  have hobserve : (Controller.sample.observe c).Ends troubled w (.ok .stale)
      (firstLook w c).state := troubled_of_answers (Program.ends_of_run_ok hfirst)
  obtain ⟨d, r, hd, hr, hverdict, -⟩ := verdict_of_stale hstored hpause hobserve .none
  obtain rfl := Option.some.inj (hcurrent.symm.trans hr)
  have hfound : foundRecord w c = d := congrArg (Option.getD · c) hd
  refine ⟨hstored, hfirst, ?_⟩
  unfold secondLook at hends ⊢
  rw [hfound] at hends ⊢
  generalize (firstLook w c).state = s at hends hverdict ⊢
  cases hresult : (s.run none (Controller.sample.observe d)).result with
  | error fault =>
      rw [hresult] at hends
      exact nomatch hends
  | ok o =>
      have hagain := troubled_of_answers (Program.ends_of_run_ok hresult)
      rw [hverdict o _ hagain, if_pos hpending]

/-- **Drift can be forgotten.** Where the status records no digest, as after a creation that stopped
before it was written, the release before the upgrade is the only evidence: the first observation
finds the record out of date, and the second finds it up to date. -/
theorem drift_forgotten :
    let w := drifted "" "0"
    let c := digested ""
    w.store.get? c.key = some c ∧ c.pause ≠ .paused ∧ (firstLook w c).result = .ok .stale ∧
      (firstLook w c).state.store.get? c.key = some (foundRecord w c) ∧
      (secondLook w c).result = .ok .current := by
  intro w c
  have hfirst : (firstLook w c).result = .ok .stale := Fault.eq_ok_of_toOption (by decide +kernel)
  have hstored : ((firstLook w c).state.store.get? c.key).isSome = true := by decide +kernel
  have hsecond : (secondLook w c).result = .ok .current :=
    Fault.eq_ok_of_toOption (by decide +kernel)
  refine ⟨sample_stores "" c, by decide, hfirst, ?_, hsecond⟩
  obtain ⟨d, hd⟩ := Option.isSome_iff_exists.mp hstored
  unfold foundRecord
  rw [hd]
  rfl

end Chartkeeper.Controller
