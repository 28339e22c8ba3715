import Chartkeeper.Proofs.Control.Pausing
import Chartkeeper.Proofs.Control.Protocol
/-!
# One release for a record

A record keeps the name of its release in a label. A pass over a record that is neither deleted nor
paused stores the label before it calls the package manager. Later writes of the same pass leave it
in place, also the one with which a creation stores the copy from before the label. So when the
package manager is called, the label that is stored says for which release, and as long as nobody
else takes the label away, all passes over the record are about one release.

- `lasting_named`: what is done to a record that carries its release name leaves the name in place.
- `named_reconcile`: a pass calls the package manager only where the stored record is named.
- `about_reconcile`: all its calls of the package manager are about one release.
- `names_of_chronicle`: both, after any number of passes and edits.
-/

namespace Chartkeeper

open World Chartkeeper.Composition

namespace Composition

/-- A record that shares a release with another one, and carries the name of it. -/
structure Named (c d : Composition) : Prop where
  kin : Kin c d
  label : d.metadata.labels.get? releaseNameLabel = some c.releaseName

/-- A record after an edit of anything but its name, its namespace, its identifier and the label
with its release name. -/
structure Edited (c d : Composition) : Prop where
  name : d.metadata.name = c.metadata.name
  namespaceName : d.metadata.namespaceName = c.metadata.namespaceName
  uid : d.metadata.uid = c.metadata.uid
  label : d.metadata.labels.get? releaseNameLabel = c.metadata.labels.get? releaseNameLabel

variable {c d : Composition}

/-- Such an edit leaves a record its release. -/
theorem Edited.kin (h : Edited c d) : Kin c d := by
  refine ⟨h.name, h.namespaceName, ?_⟩
  unfold releaseName releaseName? Composition.name Composition.uid
  rw [h.label, h.name, h.uid]

theorem named_setReleaseName (c : Composition) : Named c (c.setReleaseName c.releaseName).1 :=
  ⟨(alike_setReleaseName c).kin, get?_setLabel_self c _ _⟩

/-- What is done to a named record leaves the name in place. -/
theorem lasting_named (c : Composition) : Lasting c.key (Named c) where
  key h := h.kin.key
  status status h := ⟨(lasting_kin c).status status h.kin, h.label⟩
  merged h h' := ⟨(lasting_kin c).merged h.kin h'.kin, h'.label⟩
  named {d} h := by
    refine ⟨(lasting_kin c).named h.kin, ?_⟩
    rw [← h.kin.releaseName]
    exact get?_setLabel_self d _ _
  resumed h := ⟨(lasting_kin c).resumed h.kin, h.label⟩
  defined {d} definition h := by
    refine ⟨(lasting_kin c).defined definition h.kin, ?_⟩
    rw [get?_setDefinition_releaseName]
    exact h.label

end Composition

namespace Controller

variable {α : Type} {k : Controller} {w w' : World} {c d : Composition}
  {calls : List (World × Port.Call)}

/-! ## The label at each call -/

theorem named_marked (hpause : c.pause ≠ .paused) (definition : Definition) :
    Named c (marked c definition) :=
  ⟨(alike_marked hpause definition).kin, releaseName_marked c definition⟩

/-- Once the stored record is named, it stays so for the rest of the pass, wherever that stops. The
record of the pass may still be the one from before. -/
theorem keeps_named (hpause : c.pause ≠ .paused) (hd : Named c d) (package : Package) :
    Program.Keeps troubled (Holds (Named c))
      (findRelease d c.releaseName >>= k.proceed c d package) fun _ => True := by
  have hnamed := lasting_named c
  refine Program.keeps_bind (keeps_of_leaves (leaves_findRelease _ d _)) fun found _ => ?_
  cases found with
  | some release =>
      exact keeps_proceed_some hnamed.enduring (fun _ _ h => ⟨⟨h.kin.name, h.kin.namespaceName,
        h.kin.releaseName⟩, h.label⟩) rfl hd.kin.key package release
  | none =>
      have hcreate : Program.Keeps troubled (Holds (Named c)) (k.create c) fun _ => True := by
        rw [create_of_not_paused hpause]
        refine Program.keeps_bind (keeps_saveIf hnamed.enduring (named_setReleaseName c) _) ?_
        exact fun record hrecord => keeps_createNamed hnamed.enduring hrecord.kin.key _
      show Program.Keeps troubled (Holds (Named c))
        (k.create c >>= fun _ => pure Outcome.created) fun _ => True
      exact Program.keeps_bind hcreate fun _ _ => Program.keeps_pure trivial

/-- The stored record is named whenever the package manager is called. -/
def Labelling (c : Composition) (s : World) (call : Port.Call) : Prop :=
  ∀ visit, call.visit? = some visit → Holds (Named c) s

/-- **A pass calls the package manager only where the stored record is named.** -/
theorem named_reconcile (hstored : w.Stores c) (hdeleting : c.isDeleting = false)
    (hpause : c.pause ≠ .paused) :
    (k.reconcile c).Heeds troubled (Labelling c) w := by
  rw [reconcile_of_mark hdeleting hpause]
  refine Program.heeds_bind ?_ ?_
  · refine Program.heeds_of_only ((clerical_mark c).plain.mono fun call hcall s visit hvisit => ?_)
    rw [hcall.visit?] at hvisit
    exact nomatch hvisit
  · rintro ⟨record, package⟩ w₁ hmark
    obtain ⟨rfl, rfl, hw₁⟩ := mark_ok hstored hpause hmark
    have hmarked := named_marked hpause w.package.definition
    have hnamed : Holds (Named c) w₁ := ⟨_, hw₁, hmarked⟩
    have hkeeps := keeps_named (k := k) hpause hmarked w.package
    dsimp only
    intro calls r t hgoes begun hbegun visit _
    exact hkeeps.begun hnamed hgoes begun hbegun

/-! ## The release of each call -/

/-- Calls of the package manager are about one release. -/
def About (key : ReleaseKey) (_ : World) (call : Port.Call) : Prop :=
  ∀ visit, call.visit? = some visit → visit.2 = key

theorem about_of_plain {p : Task α} {key : ReleaseKey} (hp : p.Only Port.Call.Plain) :
    p.Heeds troubled (About key) w := by
  refine Program.heeds_of_only (hp.mono fun call hcall s visit hvisit => ?_)
  rw [hcall.visit?] at hvisit
  exact nomatch hvisit

/-- A protocol is about one release. -/
theorem about_of_obeys {p : Task α} {key : ReleaseKey} {operations : List Operation}
    (hp : Obeys w key p operations) : p.Heeds troubled (About key) w := by
  intro calls r t hgoes begun hbegun visit hvisit
  have hseen : visit ∈ visited calls := List.mem_filterMap.mpr ⟨begun, hbegun, hvisit⟩
  obtain ⟨_, -, rfl⟩ := List.mem_map.mp ((hp hgoes).1.subset hseen)
  rfl

/-- **All calls of the package manager in a pass are about one release.** -/
theorem about_reconcile (k : Controller) (c : Composition) (w : World) :
    (k.reconcile c).Heeds troubled (About (releaseKey c c.releaseName)) w := by
  have hperform (deed : Deed) (mid : World) :
      (k.perform c deed).Heeds troubled (About (releaseKey c c.releaseName)) mid :=
    about_of_obeys (obeys_perform k mid c deed)
  cases hdeleting : c.isDeleting with
  | true =>
      rw [reconcile_of_deleting hdeleting]
      exact Program.heeds_bind (hperform .delete w) fun _ _ _ => about_of_plain Program.only_pure
  | false =>
      rw [reconcile_of_not_deleting hdeleting]
      have hobserve : (k.observe c).Heeds troubled (About (releaseKey c c.releaseName)) w := by
        by_cases hpause : c.pause = .paused
        · rw [observe_of_paused hpause]
          exact about_of_plain inert_told.clerical.plain
        · exact about_of_obeys (obeys_observe hpause)
      refine Program.heeds_bind hobserve fun observation mid _ => ?_
      obtain ⟨found, upToDate⟩ := observation
      cases found with
      | false =>
          exact Program.heeds_bind (hperform .create mid) fun _ _ _ =>
            about_of_plain Program.only_pure
      | true =>
          cases upToDate with
          | false =>
              exact Program.heeds_bind (hperform .update mid) fun _ _ _ =>
                about_of_plain Program.only_pure
          | true => exact about_of_plain Program.only_pure

/-! ## Passes and edits -/

/-- A pass over a record, with the calls that it made: each of them may have failed, or a deadline
cut the pass off. -/
inductive Attempt (k : Controller) (c : Composition) (w : World) :
    List (World × Port.Call) → World → Prop
  | ended {calls : List (World × Port.Call)} {result : Except Fault Outcome} {w' : World}
      (run : (k.reconcile c).Goes troubled w calls result w') : Attempt k c w calls w'
  | timed (deadline : Option Nat) :
      Attempt k c w (w.run deadline (k.reconcile c)).begun (w.run deadline (k.reconcile c)).state

/-- What happens around the record that is stored under a key, with the calls of all passes over it.
Between two passes the record may be edited, and whatever else there is may change. -/
inductive Chronicle (k : Controller) (key : String) :
    World → List (World × Port.Call) → World → Prop
  | nil (w : World) : Chronicle k key w [] w
  | pass {w mid w' : World} {c : Composition} {calls later : List (World × Port.Call)}
      (stored : w.store.get? key = some c) (attempt : Attempt k c w calls mid)
      (rest : Chronicle k key mid later w') : Chronicle k key w (calls ++ later) w'
  | edit {w mid w' : World} {c d : Composition} {later : List (World × Port.Call)}
      (stored : w.store.get? key = some c) (edited : mid.store.get? key = some d)
      (same : Edited c d) (rest : Chronicle k key mid later w') : Chronicle k key w later w'

/-- The calls of an attempt come from a run in which calls can fail. -/
theorem Attempt.goes (h : Attempt k c w calls w') :
    ∃ (rest : List (World × Port.Call)) (r : Except Fault Outcome),
      (k.reconcile c).Goes troubled w (calls ++ rest) r w' := by
  cases h with
  | ended run => exact ⟨[], _, by rwa [List.append_nil]⟩
  | timed deadline => exact Program.goes_of_run (m := machine) _ deadline w 0

theorem Attempt.begins (h : Attempt k c w calls w') : (k.reconcile c).Begins troubled w calls := by
  obtain ⟨rest, r, hgoes⟩ := h.goes
  exact ⟨rest, r, w', hgoes⟩

/-- An attempt leaves the record its release. -/
theorem Attempt.kin (h : Attempt k c w calls w') (hc : w.Stores c) : Holds (Kin c) w' := by
  obtain ⟨rest, r, hgoes⟩ := h.goes
  have hkeeps := keeps_reconcile (k := k) (lasting_kin c)
    (fun _ _ h => ⟨h.name, h.namespaceName, h.releaseName⟩) (Kin.refl c)
  exact (hkeeps ⟨c, hc, Kin.refl c⟩ hgoes.ends).1

/-- All calls of the package manager are about one release, and in the end the record still has
it. -/
theorem Chronicle.about (h : Chronicle k c.key w calls w') (hd : w.store.get? c.key = some d)
    (hkin : Kin c d) :
    (∀ begun ∈ calls, About (releaseKey c c.releaseName) begun.1 begun.2) ∧
      ∃ e, w'.store.get? c.key = some e ∧ Kin c e := by
  induction h generalizing d with
  | nil w => exact ⟨fun _ hbegun => (nomatch hbegun), d, hd, hkin⟩
  | pass stored attempt rest ih =>
      rename_i w mid w' e calls later
      obtain rfl := Option.some.inj (hd.symm.trans stored)
      have hkey : releaseKey d d.releaseName = releaseKey c c.releaseName := by
        rw [releaseKey_eq_of_kin hkin, hkin.releaseName]
      have habout := (about_reconcile k d w).begins attempt.begins
      rw [hkey] at habout
      rw [← hkin.key] at hd
      obtain ⟨f, hf, hdf⟩ := attempt.kin hd
      have hcf := hkin.trans hdf
      obtain ⟨hlater, hend⟩ := ih (hcf.key ▸ hf) hcf
      refine ⟨fun begun hbegun => ?_, hend⟩
      exact (List.mem_append.mp hbegun).elim (habout begun) (hlater begun)
  | edit stored edited same rest ih =>
      obtain rfl := Option.some.inj (hd.symm.trans stored)
      exact ih edited (hkin.trans same.kin)

/-- **A release name is stored before it is used, and stays.** However a record is passed over and
edited, all calls of the package manager are about one and the same release. And at any point, a
pass over the stored record that is neither deleted nor paused calls the package manager only when
the label of the record that is stored then says which release the call is about. -/
theorem names_of_chronicle (hstored : w.store.get? c.key = some c)
    (h : Chronicle k c.key w calls w') :
    (∀ s call operation key, (s, call) ∈ calls → call.visit? = some (operation, key) →
      key = releaseKey c c.releaseName) ∧
    ∃ d, w'.store.get? c.key = some d ∧
      (d.isDeleting = false → d.pause ≠ .paused → ∀ later w'', Attempt k d w' later w'' →
        ∀ s call operation key, (s, call) ∈ later → call.visit? = some (operation, key) →
          key = releaseKey c c.releaseName ∧
            ∃ e, s.store.get? c.key = some e ∧
              e.metadata.labels.get? releaseNameLabel = some key.name) := by
  obtain ⟨habout, d, hd, hkin⟩ := h.about hstored (Kin.refl c)
  refine ⟨fun s call operation key hcall hvisit => habout _ hcall _ hvisit, d, hd, ?_⟩
  intro hdeleting hpause later w'' hattempt s call operation key hcall hvisit
  have hkey : key = releaseKey d d.releaseName :=
    (about_reconcile k d w').begins hattempt.begins _ hcall _ hvisit
  have hw' : w'.Stores d := by
    unfold Stores
    rw [hkin.key]
    exact hd
  obtain ⟨e, he, hnamed⟩ :=
    (named_reconcile hw' hdeleting hpause).begins hattempt.begins _ hcall _ hvisit
  have hce := hkin.trans hnamed.kin
  refine ⟨?_, e, hce.key ▸ he, ?_⟩
  · rw [hkey, releaseKey_eq_of_kin hkin, hkin.releaseName]
  · rw [hnamed.label, hkey]
    rfl

/-- A record without the label is passed over, and its release is installed. After an edit it is
passed over again, and that is about the same release. -/
theorem names_of_chronicle_edited :
    let key := releaseKey .sample Composition.sample.releaseName
    let first := (World.sample "" .sample).run none (Controller.sample.reconcile .sample)
    visited first.begun = visits key [.get, .get, .install] ∧
      ∃ d, first.state.store.get? Composition.sample.key = some d ∧
        let edited := (d.withSpec (.str "other")).withLabel "tier" "front"
        let second := (first.state.put edited).run none (Controller.sample.reconcile edited)
        ∀ s call operation used, (s, call) ∈ second.begun →
          call.visit? = some (operation, used) → used = key ∧
            ∃ e, s.store.get? Composition.sample.key = some e ∧
              e.metadata.labels.get? releaseNameLabel = some used.name := by
  have hvisits : visited ((World.sample "" .sample).run none
      (Controller.sample.reconcile .sample)).begun =
        visits (releaseKey .sample Composition.sample.releaseName) [.get, .get, .install] := by
    decide +kernel
  have hactive : (((World.sample "" .sample).run none
      (Controller.sample.reconcile .sample)).state.store.get? Composition.sample.key).map
        (fun d => (d.isDeleting, d.pause, d.key)) =
          some (false, .active, Composition.sample.key) := by
    decide +kernel
  have hstored := World.sample_stores "" .sample
  -- The world becomes a variable before the theorem is applied, so that no run is evaluated then.
  generalize World.sample "" .sample = w at hvisits hactive hstored ⊢
  intro key first
  obtain ⟨d, hd, hstate⟩ := Option.map_eq_some_iff.mp hactive
  refine ⟨hvisits, d, hd, ?_⟩
  intro edited second
  have hkey : d.key = Composition.sample.key := congrArg (·.2.2) hstate
  have hput : (first.state.put edited).store.get? Composition.sample.key = some edited := by
    rw [← hkey]
    exact Assoc.get?_insert_self _ _ _
  have hedited : Edited d edited := ⟨rfl, rfl, rfl, Table.get?_insert_of_ne (by decide) _ _⟩
  have hchronicle : Chronicle Controller.sample Composition.sample.key w _
      (first.state.put edited) :=
    .pass hstored (.timed none) (.edit hd hput hedited (.nil _))
  obtain ⟨-, e, he, hlabelled⟩ := names_of_chronicle hstored hchronicle
  obtain rfl : edited = e := Option.some.inj (hput.symm.trans he)
  have hpause : edited.pause ≠ .paused := by
    rw [show edited.pause = .active from congrArg (·.2.1) hstate]
    exact nofun
  exact hlabelled (congrArg (·.1) hstate) hpause _ _ (.timed none)

end Controller

end Chartkeeper
