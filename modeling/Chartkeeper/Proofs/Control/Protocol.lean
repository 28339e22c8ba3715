import Chartkeeper.Proofs.Control.Brackets
/-!
# Which calls the package manager gets

Each operation calls the package manager by a protocol that depends on one thing only, the release
that is there when it is first looked up. The calls that an operation has made, wherever it stops
and whichever calls fail, are the first calls of that protocol, and all of them when it ends well.
They are all about the release that the record had at the start, though the record is read back
from the store in between.

- `protocol`: the calls of an operation when nothing fails.
- `obeys_perform`: every run of an operation follows it.
- `visits_of_perform`: the same for a run that is broken off anywhere.
-/

namespace Chartkeeper

open World Chartkeeper.Composition

/-! ## Calls of the package manager -/

/-- What the package manager is called for, and for which release. -/
def Port.Call.visit? : Port.Call → Option (Operation × ReleaseKey)
  | .getRelease key => some (.get, key)
  | .install key .. => some (.install, key)
  | .upgrade key .. => some (.upgrade, key)
  | .rollback key _ => some (.rollback, key)
  | .uninstall key _ => some (.uninstall, key)
  | _ => none

theorem Port.Call.Plain.visit? {call : Port.Call} (h : call.Plain) : call.visit? = none := by
  cases call with
  | getRelease | install | upgrade | rollback | uninstall => exact h.elim
  | _ => rfl

namespace Controller

variable {α : Type} {k : Controller} {w w' : World} {c d : Composition} {name : String}
  {package : Package} {resource : ApiResource}

/-! ## The protocol -/

/-- The calls of the package manager that an operation makes when nothing fails. -/
def protocol (w : World) (c : Composition) (deed : Deed) : List Operation :=
  if c.pause = .paused then []
  else
    match deed, w.backend.current? (releaseKey c c.releaseName) with
    | .observe, none => [.get]
    | .observe, some found =>
      if found.status.isStuck then [.get, .rollback, .upgrade] else [.get, .upgrade]
    | .create, none => [.get, .install]
    | .create, some _ => [.get, .upgrade]
    | .update, _ => [.get]
    | .delete, none => [.get]
    | .delete, some _ => [.get, .uninstall, .get]

/-- Calls about one release. -/
def visits (key : ReleaseKey) (operations : List Operation) : List (Operation × ReleaseKey) :=
  operations.map fun operation => (operation, key)

/-- What the package manager was called for. -/
def visited (calls : List (World × Port.Call)) : List (Operation × ReleaseKey) :=
  Program.seen (I := Port) Port.Call.visit? calls

/-- A task calls the package manager for one release as a list says. -/
abbrev Obeys (w : World) (key : ReleaseKey) (p : Task α) (operations : List Operation) : Prop :=
  p.Follows troubled Port.Call.visit? w (visits key operations)

section

variable {β : Type} {key : ReleaseKey} {operations : List Operation}

theorem obeys_of_plain {p : Task α} (hp : p.Only Port.Call.Plain) : Obeys w key p [] :=
  Program.follows_of_only (hp.mono fun _ hcall => hcall.visit?)

/-- What comes first without such calls does not matter. -/
theorem obeys_after {p : Task α} {f : α → Task β} (hp : p.Only Port.Call.Plain)
    (hf : ∀ a mid, p.Ends troubled w (.ok a) mid → Obeys mid key (f a) operations) :
    Obeys w key (p >>= f) operations := by
  have hfirst : Obeys w key p [] := obeys_of_plain hp
  exact Program.follows_bind hfirst hf

/-- A call, and then what it leads to. -/
theorem obeys_cons {p : Task α} {f : α → Task β} {operation : Operation}
    (hp : Obeys w key p [operation])
    (hf : ∀ a mid, p.Ends troubled w (.ok a) mid → Obeys mid key (f a) operations) :
    Obeys w key (p >>= f) (operation :: operations) :=
  Program.follows_bind hp hf

/-- Nor does what comes last. -/
theorem obeys_before {p : Task α} {f : α → Task β} (hp : Obeys w key p operations)
    (hf : ∀ a, (f a).Only Port.Call.Plain) : Obeys w key (p >>= f) operations := by
  have hlast (a : α) (mid : World) : Obeys mid key (f a) [] := obeys_of_plain (hf a)
  have hwhole := Program.follows_bind hp fun a mid _ => hlast a mid
  rwa [show visits key [] = [] from rfl, List.append_nil] at hwhole

/-- Noting a failure calls the package manager no more. -/
theorem obeys_noted {p : Task α} {operation : String} (hp : Obeys w key p operations) :
    Obeys w key (noted c operation p) operations := by
  intro calls r t h
  rcases Program.goes_bind h with ⟨fault, hstop, rfl⟩ | ⟨r₀, mid, first, rest, hfirst, hrest, rfl⟩
  · obtain ⟨_, -, hr⟩ := Program.goes_outcome hstop
    exact nomatch hr
  · obtain ⟨r₁, hgoes, hr⟩ := Program.goes_outcome hfirst
    obtain rfl := Except.ok.inj hr
    obtain ⟨hbegun, hall⟩ := hp hgoes
    cases r₀ with
    | ok a =>
        obtain ⟨rfl, rfl, -⟩ := hrest
        rw [List.append_nil]
        exact ⟨hbegun, fun _ _ => hall a rfl⟩
    | error fault =>
        have hfailed : Obeys mid key (failNoted c operation fault : Task α) [] :=
          obeys_of_plain (clerical_failNoted c operation fault).plain
        have hnone : Program.seen Port.Call.visit? rest = [] := List.prefix_nil.mp (hfailed hrest).1
        unfold Program.seen at hbegun hnone ⊢
        rw [List.filterMap_append, hnone, List.append_nil]
        refine ⟨hbegun, fun a ha => ?_⟩
        rw [ha] at hrest
        exact absurd hrest.ends not_ends_failNoted

end

theorem obeys_findRelease (w : World) (c : Composition) (name : String) :
    Obeys w (releaseKey c name) (findRelease c name) [.get] :=
  Program.follows_during (Program.follows_ask rfl)

/-! ## Operations -/

theorem obeys_renew (w : World) (c : Composition) (name : String) (package : Package)
    (before : Release) :
    Obeys w (releaseKey c name) (k.renew c name package before) [.upgrade] := by
  refine obeys_after (inert_findResource c).clerical.plain fun resource w₁ _ => ?_
  have hpermissions := plain_installPermissions k c name resource package
  refine obeys_after (only_noted hpermissions fun fault => (clerical_failNoted c _ fault).plain) ?_
  intro _ w₂ _
  refine obeys_after Program.only_lift fun action w₃ _ => ?_
  refine obeys_before (obeys_noted (Program.follows_during (Program.follows_ask rfl))) ?_
  exact fun after => (clerical_observeUpgraded c package before after).plain

theorem obeys_observeFound (w : World) (c : Composition) (name : String) (package : Package)
    (release : Release) :
    Obeys w (releaseKey c name) (k.observeFound c name package (some release))
      (if release.status.isStuck then [.rollback, .upgrade] else [.upgrade]) := by
  show Obeys w _ (k.recover (releaseKey c name) release >>= fun before =>
    k.renew c name package before) _
  unfold recover
  by_cases hstuck : release.status.isStuck = true
  · rw [if_pos hstuck, if_pos hstuck]
    exact obeys_cons (Program.follows_during (Program.follows_ask rfl)) fun before w₁ _ =>
      obeys_renew w₁ c name package before
  · rw [if_neg hstuck, if_neg hstuck]
    exact obeys_renew w c name package release

theorem obeys_observe (hpause : c.pause ≠ .paused) :
    Obeys w (releaseKey c c.releaseName) (k.observe c) (protocol w c .observe) := by
  unfold protocol
  rw [if_neg hpause, observe_of_mark hpause]
  have hmark := (clerical_mark c).plain
  refine obeys_after hmark ?_
  rintro ⟨record, package⟩ w₁ hmarked
  have hkey := releaseKey_eq_of_kin (kin_mark hmarked) c.releaseName
  have hreleases : Same .releases w w₁ := (leaves_mark (by decide) c).same hmarked
  have hobeys := obeys_findRelease w₁ record c.releaseName
  rw [hkey] at hobeys
  have hlookup : ∀ found w₂, (findRelease record c.releaseName).Ends troubled w₁ (.ok found) w₂ →
      w.backend.current? (releaseKey c c.releaseName) = found := by
    intro found w₂ hfind
    rw [findRelease_ok hfind, hkey, hreleases.current?]
  cases hcurrent : w.backend.current? (releaseKey c c.releaseName) with
  | none =>
      refine obeys_cons hobeys fun found w₂ hfind => ?_
      obtain rfl := hcurrent.symm.trans (hlookup found w₂ hfind)
      exact Program.follows_pure
  | some release =>
      have hplan : (if release.status.isStuck then [.get, .rollback, .upgrade]
          else [.get, .upgrade]) =
          Operation.get ::
            if release.status.isStuck then [.rollback, .upgrade] else [.upgrade] := by
        split <;> rfl
      dsimp only
      rw [hplan]
      refine obeys_cons hobeys fun found w₂ hfind => ?_
      obtain rfl := hcurrent.symm.trans (hlookup found w₂ hfind)
      rw [← hkey]
      exact obeys_observeFound w₂ record c.releaseName package release

/-- What making a release calls the package manager for. -/
theorem obeys_make (w : World) (c : Composition) (name : String) (package : Package) :
    Obeys w (releaseKey c name) (k.make name c package)
      (match w.backend.current? (releaseKey c name) with
        | none => [.get, .install]
        | some _ => [.get, .upgrade]) := by
  refine obeys_after (inert_findResource c).clerical.plain fun resource w₁ hresource => ?_
  refine obeys_after (Program.only_during
    (plain_installPermissions k c name resource package)) fun _ w₂ hpermissions => ?_
  refine obeys_after Program.only_lift fun action w₃ haction => ?_
  obtain ⟨-, rfl⟩ := haction
  have hreleases : Same .releases w w₃ :=
    ((leaves_findResource .releases c).same hresource).trans
      ((leaves_installPermissions (by decide) k c name resource package).same
        (Program.ends_during_ok.mp hpermissions))
  rw [← hreleases.current?]
  cases hcurrent : w₃.backend.current? (releaseKey c name) with
  | none =>
      refine obeys_cons (obeys_findRelease w₃ c name) fun found w₄ hfind => ?_
      obtain rfl := (findRelease_ok hfind).trans hcurrent
      exact Program.follows_during (Program.follows_ask rfl)
  | some release =>
      refine obeys_cons (obeys_findRelease w₃ c name) fun found w₄ hfind => ?_
      obtain rfl := (findRelease_ok hfind).trans hcurrent
      exact Program.follows_during (Program.follows_ask rfl)

theorem obeys_create (hpause : c.pause ≠ .paused) :
    Obeys w (releaseKey c c.releaseName) (k.create c) (protocol w c .create) := by
  have hplan : protocol w c .create =
      (match w.backend.current? (releaseKey c c.releaseName) with
        | none => [.get, .install]
        | some _ => [.get, .upgrade]) := by
    unfold protocol
    rw [if_neg hpause]
    cases w.backend.current? (releaseKey c c.releaseName) <;> rfl
  have hsaving :=
    clerical_saveIf (c.setReleaseName c.releaseName).2 (c.setReleaseName c.releaseName).1
  rw [hplan, create_of_not_paused hpause]
  refine obeys_after hsaving.plain fun record w₁ hsave => ?_
  have hkin : Kin c record := ((lasting_kin c).named (Kin.refl c)).trans (kin_saveIf hsave)
  refine obeys_after (inert_findPackage record).clerical.plain fun package w₂ hpackage => ?_
  have hreleases : Same .releases w w₂ :=
    ((leaves_saveIf (by decide) _ _).same hsave).trans
      ((leaves_findPackage .releases record).same hpackage)
  rw [← hreleases.current?, ← releaseKey_eq_of_kin hkin]
  exact obeys_before (obeys_make w₂ record c.releaseName package) fun release =>
    (clerical_recordCreated record package release).plain

theorem obeys_update (hpause : c.pause ≠ .paused) :
    Obeys w (releaseKey c c.releaseName) (update c) [.get] := by
  rw [update_of_not_paused hpause]
  refine obeys_after (inert_findPackage c).clerical.plain fun package w₁ _ => ?_
  refine obeys_cons (obeys_findRelease w₁ c c.releaseName) fun found w₂ _ => ?_
  cases found with
  | none => exact Program.follows_fail
  | some release => exact obeys_of_plain (clerical_recordUpdated c package release).plain

/-- Removing permissions does not call the package manager. -/
theorem obeys_dismantle (w : World) (key : ReleaseKey) (c : Composition) (package : Package) :
    Obeys w key (k.dismantle c package) [] := by
  refine obeys_after (inert_findResource c).clerical.plain fun resource w₁ _ => ?_
  have hgenerating := Owner.inert_generate (owner c resource package) k.account c.releaseName
  refine obeys_after (Program.only_during hgenerating.clerical.plain) fun bundle w₂ _ => ?_
  have hremoved : (bundle.uninstall.during "uninstalling rbac").Only
      fun call : Port.Call => call.visit? = none :=
    Program.only_during (Program.only_each fun _ _ => Program.only_during (Program.only_ask rfl))
  refine obeys_before (Program.follows_of_only hremoved) fun _ => ?_
  exact Program.only_bind (Task.inert_announce _ _).clerical.plain fun _ =>
    Program.only_bind (clerical_saveRecord _).plain fun _ => Program.only_pure

theorem obeys_delete (hpause : c.pause ≠ .paused) :
    Obeys w (releaseKey c c.releaseName) (k.delete c) (protocol w c .delete) := by
  unfold protocol delete
  rw [if_neg hpause, if_neg hpause]
  refine obeys_after (inert_findPackage c).clerical.plain fun package w₁ hpackage => ?_
  rw [← ((leaves_findPackage .releases c).same hpackage).current?]
  have hobeys := obeys_findRelease w₁ c c.releaseName
  cases hcurrent : w₁.backend.current? (releaseKey c c.releaseName) with
  | none =>
      refine obeys_cons hobeys fun found w₂ hfind => ?_
      obtain rfl := (findRelease_ok hfind).trans hcurrent
      exact obeys_of_plain inert_told.clerical.plain
  | some release =>
      refine obeys_cons hobeys fun found w₂ hfind => ?_
      obtain rfl := (findRelease_ok hfind).trans hcurrent
      refine obeys_cons (Program.follows_during (Program.follows_ask rfl)) fun _ w₃ _ => ?_
      refine obeys_cons (obeys_findRelease w₃ c c.releaseName) fun left w₄ _ => ?_
      cases left with
      | some _ => exact Program.follows_fail
      | none => exact obeys_dismantle w₄ _ c package

/-- **Every run of an operation follows its protocol.** -/
theorem obeys_perform (k : Controller) (w : World) (c : Composition) (deed : Deed) :
    Obeys w (releaseKey c c.releaseName) (k.perform c deed) (protocol w c deed) := by
  by_cases hpause : c.pause = .paused
  · have hnone : protocol w c deed = [] := if_pos hpause
    rw [hnone]
    exact obeys_of_plain (plain_perform_paused hpause deed)
  · cases deed with
    | observe => exact obeys_before (obeys_observe hpause) fun _ => Program.only_pure
    | create => exact obeys_create hpause
    | update =>
        have hplan : protocol w c .update = [.get] := by
          unfold protocol
          rw [if_neg hpause]
        rw [hplan]
        exact obeys_update hpause
    | delete => exact obeys_delete hpause

/-! ## The calls of a run -/

/-- No protocol rolls back twice, or after an upgrade. -/
theorem rollback_protocol (w : World) (c : Composition) (deed : Deed) :
    (protocol w c deed).count .rollback ≤ 1 ∧
      ¬[Operation.upgrade, .rollback].Sublist (protocol w c deed) := by
  unfold protocol
  split
  · decide
  · split
    · decide
    · split <;> decide
    all_goals decide

/-- **What an operation calls the package manager for.** Wherever it stops and whichever calls fail,
the calls so far are the first ones of its protocol, and about the release that the record had at
the start; they are all of them when it ends well. So it rolls back at most once and before it
upgrades, and it installs only where there is no release. -/
theorem visits_of_perform {calls : List (World × Port.Call)} {deed : Deed}
    (h : (k.perform c deed).Begins troubled w calls) :
    let key := releaseKey c c.releaseName
    visited calls <+: visits key (protocol w c deed) ∧
      (∀ w', (k.perform c deed).Goes troubled w calls (.ok ()) w' →
        visited calls = visits key (protocol w c deed)) ∧
      ((visited calls).map Prod.fst).count .rollback ≤ 1 ∧
      ¬[Operation.upgrade, .rollback].Sublist ((visited calls).map Prod.fst) ∧
      (∀ visit ∈ visited calls, visit.2 = key) ∧
      ∀ s installed url action, (s, .install installed url action) ∈ calls →
        s.backend.current? installed = none := by
  intro key
  have hobeys := obeys_perform k w c deed
  have hbegun : visited calls <+: visits key (protocol w c deed) := hobeys.begins h
  have hfirst : (visited calls).map Prod.fst <+: protocol w c deed := by
    have hmapped := hbegun.map Prod.fst
    rwa [visits, List.map_map, show Prod.fst ∘ (fun operation => (operation, key)) = id from rfl,
      List.map_id] at hmapped
  obtain ⟨honce, hbefore⟩ := rollback_protocol w c deed
  refine ⟨hbegun, fun w' hgoes => (hobeys hgoes).2 () rfl, ?_, ?_, ?_, ?_⟩
  · exact Nat.le_trans (hfirst.sublist.count_le _) honce
  · exact fun hsub => hbefore (hsub.trans hfirst.sublist)
  · intro visit hvisit
    obtain ⟨_, -, rfl⟩ := List.mem_map.mp (hbegun.subset hvisit)
    rfl
  · exact fun s installed url action hcall => ((bracketed_perform k w c deed).begins h _ hcall).2

/-- A world in which an upgrade of a record's release was cut short. -/
def interrupted : World :=
  let key := releaseKey .sample Composition.sample.releaseName
  (World.sample "" .sample).modifyBackend
    (·.seed { Release.deployed key "web" "1.0.0" "" with status := .pendingUpgrade })

/-- A release that was left pending is rolled back once, and then upgraded. -/
theorem visits_of_perform_interrupted :
    let observed := interrupted.run none (Controller.sample.perform .sample .observe)
    observed.result = .ok () ∧
      visited observed.begun =
        visits (releaseKey .sample Composition.sample.releaseName) [.get, .rollback, .upgrade] := by
  have hresult : (interrupted.run none (Controller.sample.perform .sample .observe)).result =
      .ok () := Fault.eq_ok_of_toOption (by decide +kernel)
  have hprotocol : protocol interrupted .sample .observe = [.get, .rollback, .upgrade] := by
    decide +kernel
  -- The world becomes a variable before the theorem is applied, so that no run is evaluated then.
  generalize interrupted = w at hresult hprotocol ⊢
  intro observed
  have hgoes : (Controller.sample.perform .sample .observe).Goes troubled w observed.begun
      observed.result observed.state :=
    (Program.goes_run (m := machine) _ w 0).mono fun _ _ _ _ => Or.inl
  rw [show observed.result = .ok () from hresult] at hgoes
  have hvisits := (visits_of_perform hgoes.begins).2.1 _ hgoes
  rw [hprotocol] at hvisits
  exact ⟨hresult, hvisits⟩

end Controller

end Chartkeeper
