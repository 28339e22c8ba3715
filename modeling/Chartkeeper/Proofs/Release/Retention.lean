import Mathlib.Data.Option.Basic
import Chartkeeper.Proofs.Release.History
import Chartkeeper.Settings.Basic
/-!
# What a history limit changes

A limit drops the oldest releases of a history whenever one is added. Beside a package manager that
keeps every release, one with a limit has the newest releases of each history, and at least as many
of them as the limit allows. The operations look no further back than the release before the
current one, so a limit of two or more changes nothing that they answer. A limit of one leaves a
rollback nothing to go back to but the current release itself.

- `Remnant`: what a limit leaves of a history; `Remnant.takeOver` is the step.
- `Behind`: the two package managers side by side; `inStep_happen` is the step of a run.
- `trace_of_limit`: the two runs agree until a rollback is `Diverted`, and with a limit of two or
  more none ever is.
- `trace_of_one`: one that is.
-/

namespace Chartkeeper

/-- A release as it stands when it is deployed again, at a revision. -/
def Release.redeployed (r : Release) (revision : Nat) : Release :=
  { r with revision, status := .deployed }

theorem Release.redeployed_inj {r r' : Release} (revision revision' : Nat)
    (h : r.redeployed revision = r'.redeployed revision) :
    r.redeployed revision' = r'.redeployed revision' := by
  simp only [redeployed, Release.mk.injEq, true_and] at h ⊢
  exact h

namespace Backend

/-! ## What is left of a history -/

/-- What a limit leaves of a history: the newest releases, all of them or at least as many as the
limit allows. -/
structure Remnant (limit : Nat) (kept all : List Release) : Prop where
  suffix : kept <:+ all
  length_le : min limit all.length ≤ kept.length

namespace Remnant

variable {limit : Nat} {kept all : List Release}

theorem refl (limit : Nat) (all : List Release) : Remnant limit all all :=
  ⟨List.suffix_rfl, Nat.min_le_right _ _⟩

/-- Only an empty history is left empty. -/
theorem eq_nil (h : Remnant limit [] all) (hlimit : limit ≠ 0) : all = [] := by
  have hlength := h.length_le
  rw [← List.length_eq_zero_iff]
  simp only [List.length_nil] at hlength
  omega

/-- The newest release is always among what is left. -/
theorem getLast? (h : Remnant limit kept all) (hlimit : limit ≠ 0) :
    kept.getLast? = all.getLast? := by
  by_cases hkept : kept = []
  · subst hkept
    rw [h.eq_nil hlimit]
  · obtain ⟨dropped, rfl⟩ := h.suffix
    rw [List.getLast?_append_of_ne_nil _ hkept]

theorem append_singleton (h : Remnant limit kept all) (r : Release) :
    Remnant limit (kept ++ [r]) (all ++ [r]) := by
  have hlength := h.length_le
  refine ⟨?_, ?_⟩
  · obtain ⟨dropped, rfl⟩ := h.suffix
    exact ⟨dropped, (List.append_assoc _ _ _).symm⟩
  · simp only [List.length_append, List.length_singleton]
    omega

/-- A release that takes over in both histories, with the limit in the one. -/
theorem takeOver (h : Remnant limit kept all) (next : Release) :
    Remnant limit (Backend.takeOver limit kept next) (Backend.takeOver 0 all next) := by
  have hmarked : Remnant limit (kept.map fun r => { r with status := .superseded })
      (all.map fun r => { r with status := .superseded }) := by
    refine ⟨h.suffix.map _, ?_⟩
    rw [List.length_map, List.length_map]
    exact h.length_le
  have hnext := hmarked.append_singleton next
  have hlength := hnext.length_le
  refine ⟨(trim_suffix limit _).trans hnext.suffix, ?_⟩
  show min limit (all.map _ ++ [next]).length ≤ (trim limit _).length
  rw [length_trim]
  split
  · omega
  · omega

/-- With more than one release left, or none, a rollback goes back to the same release. -/
theorem rollbackTarget? (h : Remnant limit kept all) (hlimit : limit ≠ 0)
    (hlength : kept.length ≠ 1) : Backend.rollbackTarget? kept = Backend.rollbackTarget? all := by
  obtain ⟨newer, hnewer⟩ := List.reverse_prefix.mpr h.suffix
  unfold Backend.rollbackTarget?
  rw [← hnewer]
  match hkept : kept.reverse with
  | [] =>
    obtain rfl := List.reverse_eq_nil_iff.mp hkept
    obtain rfl := h.eq_nil hlimit
    obtain rfl : newer = [] := hnewer
    rfl
  | [only] => exact absurd (by rw [← List.length_reverse, hkept]; rfl) hlength
  | _ :: _ :: _ => rfl

end Remnant

/-- A single release is rolled back onto itself. -/
theorem rollbackTarget?_of_length {releases : List Release} (h : releases.length = 1) :
    rollbackTarget? releases = releases.getLast? := by
  obtain ⟨only, rfl⟩ := List.length_eq_one_iff.mp h
  rfl

/-! ## Side by side -/

/-- A package manager whose histories were cut to a limit, beside one that kept everything. -/
structure Behind (limit : Nat) (kept all : Backend) : Prop where
  charts : kept.charts = all.charts
  failures : kept.failures = all.failures
  retains : kept.retains = all.retains
  histories : Assoc.Rel (Remnant limit) kept.histories all.histories

/-- Two runs of one operation: they answer alike, and stay side by side. -/
structure InStep {α : Type} (limit : Nat) (r s : Except Fault α × Backend) : Prop where
  answer : r.1 = s.1
  behind : Behind limit r.2 s.2

/-- A rollback that a limit turns to another release: only the current one was kept, and the one
that was before it is not the same chart with the same manifest. -/
structure Diverted (kept all : Backend) (key : ReleaseKey) : Prop where
  calm : all.failures.get? .rollback = none
  single : (kept.history key).length = 1
  differs : ∃ current target, all.current? key = some current ∧
    rollbackTarget? (all.history key) = some target ∧ target.redeployed 0 ≠ current.redeployed 0

variable {limit : Nat} {kept all : Backend} {key : ReleaseKey}

namespace Behind

theorem refl (limit : Nat) (b : Backend) : Behind limit b b :=
  ⟨rfl, rfl, rfl, List.forall₂_same.mpr fun row _ => ⟨rfl, Remnant.refl limit row.2⟩⟩

theorem history (h : Behind limit kept all) (key : ReleaseKey) :
    Remnant limit (kept.history key) (all.history key) := by
  have hthere := h.histories.get? key
  unfold Backend.history
  generalize kept.histories.get? key = found at hthere ⊢
  generalize all.histories.get? key = found' at hthere ⊢
  cases hthere with
  | none => exact Remnant.refl limit []
  | some hremnant => exact hremnant

theorem current? (h : Behind limit kept all) (hlimit : limit ≠ 0) (key : ReleaseKey) :
    kept.current? key = all.current? key :=
  (h.history key).getLast? hlimit

theorem isNone_get? (h : Behind limit kept all) (key : ReleaseKey) :
    (kept.histories.get? key).isNone = (all.histories.get? key).isNone := by
  have hthere := h.histories.get? key
  generalize kept.histories.get? key = found at hthere ⊢
  generalize all.histories.get? key = found' at hthere ⊢
  cases hthere with
  | none => rfl
  | some _ => rfl

theorem render (h : Behind limit kept all) (key : ReleaseKey) (url : String) (action : Action) :
    kept.render key url action = all.render key url action :=
  render_eq_of_charts h.charts

theorem setHistory (h : Behind limit kept all) {releases releases' : List Release}
    (hremnant : Remnant limit releases releases') :
    Behind limit (kept.setHistory key releases) (all.setHistory key releases') :=
  ⟨h.charts, h.failures, h.retains, h.histories.insert key hremnant⟩

/-- Noting a call goes alike on both sides, and changes nothing else. -/
theorem check_cases (h : Behind limit kept all) (op : Operation) :
    let kept' := { kept with calls := kept.calls ++ [op] }
    let all' := { all with calls := all.calls ++ [op] }
    Behind limit kept' all' ∧
      ((∃ fault, kept.check op = (.error fault, kept') ∧ all.check op = (.error fault, all')) ∨
        all.failures.get? op = none ∧ kept.check op = (.ok (), kept') ∧
          all.check op = (.ok (), all')) := by
  refine ⟨⟨h.charts, h.failures, h.retains, h.histories⟩, ?_⟩
  unfold check
  rw [h.failures]
  cases all.failures.get? op with
  | some reason => exact Or.inl ⟨_, rfl, rfl⟩
  | none => exact Or.inr ⟨rfl, rfl, rfl⟩

end Behind

/-! ## One operation -/

theorem inStep_get (h : Behind limit kept all) (hlimit : limit ≠ 0) (key : ReleaseKey) :
    InStep limit (kept.get key) (all.get key) := by
  unfold get
  obtain ⟨hnoted, ⟨fault, hkept, hall⟩ | ⟨-, hkept, hall⟩⟩ := h.check_cases .get
  · rw [hkept, hall]
    exact ⟨rfl, hnoted⟩
  · rw [hkept, hall]
    exact ⟨congrArg Except.ok (hnoted.current? hlimit key), hnoted⟩

theorem inStep_install (h : Behind limit kept all) (hlimit : limit ≠ 0) (key : ReleaseKey)
    (url : String) (action : Action) :
    InStep limit (kept.install key url action) (all.install key url action) := by
  unfold install
  rw [h.render]
  cases all.render key url action with
  | error fault => exact ⟨rfl, h⟩
  | ok release =>
    obtain ⟨hnoted, ⟨fault, hkept, hall⟩ | ⟨-, hkept, hall⟩⟩ := h.check_cases .install
    · rw [hkept, hall]
      exact ⟨rfl, hnoted⟩
    · rw [hkept, hall]
      dsimp only
      rw [hnoted.current? hlimit key]
      split
      · exact ⟨rfl, hnoted⟩
      · exact ⟨rfl, hnoted.setHistory (.refl _ _)⟩

theorem inStep_upgrade (h : Behind limit kept all) (hlimit : limit ≠ 0) (key : ReleaseKey)
    (url : String) (action : Action) :
    InStep limit (kept.upgrade key url action limit) (all.upgrade key url action 0) := by
  unfold upgrade
  rw [h.render]
  cases all.render key url action with
  | error fault => exact ⟨rfl, h⟩
  | ok rendered =>
    obtain ⟨hnoted, ⟨fault, hkept, hall⟩ | ⟨-, hkept, hall⟩⟩ := h.check_cases .upgrade
    · rw [hkept, hall]
      exact ⟨rfl, hnoted⟩
    · rw [hkept, hall]
      dsimp only
      rw [hnoted.current? hlimit key]
      split
      · exact ⟨rfl, hnoted⟩
      · exact ⟨rfl, hnoted.setHistory ((hnoted.history key).takeOver _)⟩

/-- A rollback goes back to the same chart with the same manifest, unless it is diverted. -/
theorem redeployed_eq {current target target' : Release} (h : Behind limit kept all)
    (hlimit : limit ≠ 0) (hcalm : all.failures.get? .rollback = none)
    (hdiverted : ¬Diverted kept all key) (hcurrent : all.current? key = some current)
    (htarget : rollbackTarget? (kept.history key) = some target)
    (htarget' : rollbackTarget? (all.history key) = some target') (revision : Nat) :
    target.redeployed revision = target'.redeployed revision := by
  by_cases hsingle : (kept.history key).length = 1
  · have hself : target = current := by
      rw [rollbackTarget?_of_length hsingle] at htarget
      exact Option.some.inj (htarget.symm.trans ((h.current? hlimit key).trans hcurrent))
    subst hself
    refine Release.redeployed_inj 0 revision (Classical.byContradiction fun hdiffers => ?_)
    exact hdiverted ⟨hcalm, hsingle, target, target', hcurrent, htarget', Ne.symm hdiffers⟩
  · rw [(h.history key).rollbackTarget? hlimit hsingle, htarget'] at htarget
    rw [Option.some.inj htarget]

/-- A rollback that goes ahead deploys again what it goes back to. -/
theorem rollback_of_current {b b' : Backend} {current target : Release}
    (hcheck : b.check .rollback = (.ok (), b')) (hcurrent : b'.current? key = some current)
    (htarget : rollbackTarget? (b'.history key) = some target) (limit : Nat) :
    b.rollback key limit =
      (.ok (target.redeployed (Release.nextRevision current.revision)),
        b'.setHistory key (takeOver limit (b'.history key)
          (target.redeployed (Release.nextRevision current.revision)))) := by
  unfold rollback
  rw [hcheck]
  dsimp only
  rw [hcurrent, htarget]
  rfl

theorem rollback_of_none {b b' : Backend} (hcheck : b.check .rollback = (.ok (), b'))
    (hcurrent : b'.current? key = none) (limit : Nat) :
    b.rollback key limit =
      (.error (.backend "rollback" ("release " ++ key.name ++ " not found")), b') := by
  unfold rollback
  rw [hcheck]
  dsimp only
  rw [hcurrent]

theorem inStep_rollback (h : Behind limit kept all) (hlimit : limit ≠ 0)
    (hdiverted : ¬Diverted kept all key) :
    InStep limit (kept.rollback key limit) (all.rollback key 0) := by
  obtain ⟨hnoted, ⟨fault, hkept, hall⟩ | ⟨hcalm, hkept, hall⟩⟩ := h.check_cases .rollback
  · unfold rollback
    rw [hkept, hall]
    exact ⟨rfl, hnoted⟩
  · have hsame := h.current? hlimit key
    cases hcurrent : all.current? key with
    | none =>
      rw [rollback_of_none hkept (hsame.trans hcurrent), rollback_of_none hall hcurrent]
      exact ⟨rfl, hnoted⟩
    | some current =>
      obtain ⟨target, htarget⟩ := exists_rollbackTarget? (hsame.trans hcurrent)
      obtain ⟨target', htarget'⟩ := exists_rollbackTarget? hcurrent
      rw [rollback_of_current hkept (hsame.trans hcurrent) htarget,
        rollback_of_current hall hcurrent htarget',
        redeployed_eq h hlimit hcalm hdiverted hcurrent htarget htarget']
      exact ⟨rfl, hnoted.setHistory ((hnoted.history key).takeOver _)⟩

/-- A diverted rollback deploys the current release again. -/
theorem Diverted.rollback (hdiverted : Diverted kept all key) (hsetup : kept.setup = all.setup)
    (limit : Nat) : ∃ current, kept.current? key = some current ∧
      (kept.rollback key limit).1 =
        .ok (current.redeployed (Release.nextRevision current.revision)) ∧
      (kept.rollback key limit).2.current? key =
        some (current.redeployed (Release.nextRevision current.revision)) := by
  obtain ⟨hcalm, hsingle, -⟩ := hdiverted
  obtain ⟨current, honly⟩ := List.length_eq_one_iff.mp hsingle
  have hcurrent : kept.current? key = some current := congrArg List.getLast? honly
  have htarget : rollbackTarget? (kept.history key) = some current :=
    (rollbackTarget?_of_length hsingle).trans hcurrent
  have hcheck : kept.check .rollback =
      (.ok (), { kept with calls := kept.calls ++ [.rollback] }) := by
    unfold check
    rw [show kept.failures = all.failures from congrArg Prod.snd hsetup, hcalm]
  refine ⟨current, hcurrent, ?_⟩
  rw [rollback_of_current hcheck hcurrent htarget]
  refine ⟨rfl, ?_⟩
  unfold Backend.current? Backend.history Backend.setHistory
  rw [Assoc.get?_insert_self]
  exact getLast?_takeOver _ _ _

/-- Where nothing is dropped, it would have answered otherwise. -/
theorem Diverted.answer_ne (hdiverted : Diverted kept all key) (h : Behind limit kept all)
    (hlimit : limit ≠ 0) : (kept.rollback key limit).1 ≠ (all.rollback key 0).1 := by
  have hsetup : kept.setup = all.setup := Prod.ext h.charts h.failures
  obtain ⟨again, hagain, hrollback, -⟩ := hdiverted.rollback hsetup limit
  obtain ⟨hcalm, -, current, target, hcurrent, htarget, hdiffers⟩ := hdiverted
  obtain rfl : again = current :=
    Option.some.inj (hagain.symm.trans ((h.current? hlimit key).trans hcurrent))
  obtain ⟨-, ⟨fault, -, hall⟩ | ⟨-, -, hall⟩⟩ := h.check_cases .rollback
  · unfold check at hall
    rw [hcalm] at hall
    exact nomatch hall
  · rw [hrollback, rollback_of_current hall hcurrent htarget]
    intro heq
    exact hdiffers (Release.redeployed_inj _ 0 (Except.ok.inj heq).symm)

/-- Where a limit allows for two releases, a single one is all there ever was. -/
theorem Behind.not_diverted (h : Behind limit kept all) (hlimit : 2 ≤ limit) (key : ReleaseKey) :
    ¬Diverted kept all key := by
  rintro ⟨-, hsingle, current, target, hcurrent, htarget, hdiffers⟩
  have hlength := (h.history key).length_le
  have hnonempty : all.history key ≠ [] := by
    rintro hempty
    unfold Backend.current? at hcurrent
    rw [hempty] at hcurrent
    exact nomatch hcurrent
  have hall : (all.history key).length = 1 := by
    have hpos := List.length_pos_iff.mpr hnonempty
    omega
  rw [rollbackTarget?_of_length hall] at htarget
  rw [Option.some.inj (htarget.symm.trans hcurrent)] at hdiffers
  exact hdiffers rfl

theorem inStep_uninstall (h : Behind limit kept all) (key : ReleaseKey) (ignoreMissing : Bool) :
    InStep limit (kept.uninstall key ignoreMissing) (all.uninstall key ignoreMissing) := by
  unfold uninstall
  obtain ⟨hnoted, ⟨fault, hkept, hall⟩ | ⟨-, hkept, hall⟩⟩ := h.check_cases .uninstall
  · rw [hkept, hall]
    exact ⟨rfl, hnoted⟩
  · rw [hkept, hall]
    dsimp only
    by_cases hretains : all.retains = true
    · rw [if_pos (h.retains.trans hretains), if_pos hretains]
      exact ⟨rfl, hnoted⟩
    · rw [if_neg (mt h.retains.symm.trans hretains), if_neg hretains, h.isNone_get?]
      split
      · exact ⟨rfl, hnoted⟩
      · exact ⟨rfl, h.charts, h.failures, h.retains, h.histories.erase key⟩

/-! ## Runs -/

/-- The request with another limit, if it has one. -/
def Request.limited (limit : Nat) : Request → Request
  | get key => .get key
  | install key url action => .install key url action
  | upgrade key url action _ => .upgrade key url action limit
  | rollback key _ => .rollback key limit
  | uninstall key ignoreMissing => .uninstall key ignoreMissing

/-- What happens to a package manager: requests, and changes of what it is prepared with. -/
inductive Event where
  | request (request : Request)
  | register (url : String) (chart : Chart)
  | seed (release : Release)
  | failOn (op : Operation) (reason : String)
  | clearFailures

/-- An event with its answer, every request under one limit. -/
def happen (limit : Nat) (b : Backend) : Event → Except Fault (Option Release) × Backend
  | .request request => b.perform (request.limited limit)
  | .register url chart => (.ok none, b.register url chart)
  | .seed release => (.ok none, b.seed release)
  | .failOn op reason => (.ok none, b.failOn op reason)
  | .clearFailures => (.ok none, b.clearFailures)

/-- The package manager after some events. -/
def after (limit : Nat) (b : Backend) (events : List Event) : Backend :=
  events.foldl (fun b event => (b.happen limit event).2) b

/-- Whatever happens, two package managers that are prepared alike stay so. -/
theorem setup_happen {limit limit' : Nat} {b b' : Backend} (h : b.setup = b'.setup)
    (event : Event) : (b.happen limit event).2.setup = (b'.happen limit' event).2.setup := by
  cases event with
  | request request =>
    have hb := (acts_perform b (request.limited limit)).setup
    have hb' := (acts_perform b' (request.limited limit')).setup
    exact (hb.trans h).trans hb'.symm
  | register url chart => exact congrArg (fun setup => (setup.1.insert url chart, setup.2)) h
  | seed release => exact h
  | failOn op reason => exact congrArg (fun setup => (setup.1, setup.2.insert op reason)) h
  | clearFailures => exact congrArg (fun setup => (setup.1, [])) h

theorem setup_after {limit limit' : Nat} {b b' : Backend} (h : b.setup = b'.setup)
    (events : List Event) : (b.after limit events).setup = (b'.after limit' events).setup := by
  induction events generalizing b b' with
  | nil => exact h
  | cons event events ih => exact ih (setup_happen h event)

/-- What is seen of a run: after each event its answer, and the current release of every name. -/
def trace (limit : Nat) : Backend → List Event →
    List (Except Fault (Option Release) × (ReleaseKey → Option Release))
  | _, [] => []
  | b, event :: events =>
    ((b.happen limit event).1, (b.happen limit event).2.current?) ::
      trace limit (b.happen limit event).2 events

/-- Somewhere in a run a rollback is diverted. -/
def Diverts (limit : Nat) (kept all : Backend) (events : List Event) : Prop :=
  ∃ before key given later, events = before ++ .request (.rollback key given) :: later ∧
    Diverted (kept.after limit before) (all.after 0 before) key

theorem not_diverts_nil : ¬Diverts limit kept all [] := by
  rintro ⟨before, key, given, later, hevents, -⟩
  exact List.append_ne_nil_of_right_ne_nil before (List.cons_ne_nil _ _) hevents.symm

theorem diverts_cons {event : Event} {events : List Event} :
    Diverts limit kept all (event :: events) ↔
      (∃ key given, event = .request (.rollback key given) ∧ Diverted kept all key) ∨
      Diverts limit (kept.happen limit event).2 (all.happen 0 event).2 events := by
  constructor
  · rintro ⟨before, key, given, later, hevents, hdiverted⟩
    cases before with
    | nil => exact Or.inl ⟨key, given, (List.cons.inj hevents).1, hdiverted⟩
    | cons first before =>
      obtain ⟨rfl, rfl⟩ := List.cons.inj hevents
      exact Or.inr ⟨before, key, given, later, rfl, hdiverted⟩
  · rintro (⟨key, given, rfl, hdiverted⟩ | ⟨before, key, given, later, rfl, hdiverted⟩)
    · exact ⟨[], key, given, events, rfl, hdiverted⟩
    · exact ⟨event :: before, key, given, later, rfl, hdiverted⟩

theorem InStep.reply {α : Type} {r s : Except Fault α × Backend} (h : InStep limit r s)
    (f : α → Option Release) : InStep limit (reply f r) (reply f s) :=
  ⟨congrArg (Except.map f) h.answer, h.behind⟩

/-- **One event.** Both sides answer alike and stay side by side, unless it is a rollback that is
diverted. -/
theorem inStep_happen (h : Behind limit kept all) (hlimit : limit ≠ 0) {event : Event}
    (hevent : ∀ key given, event = .request (.rollback key given) → ¬Diverted kept all key) :
    InStep limit (kept.happen limit event) (all.happen 0 event) := by
  cases event with
  | request request =>
    cases request with
    | get key => exact (inStep_get h hlimit key).reply _
    | install key url action => exact (inStep_install h hlimit key url action).reply _
    | upgrade key url action _ => exact (inStep_upgrade h hlimit key url action).reply _
    | rollback key given => exact (inStep_rollback h hlimit (hevent key given rfl)).reply _
    | uninstall key ignoreMissing => exact (inStep_uninstall h key ignoreMissing).reply _
  | register url chart =>
    exact ⟨rfl, congrArg (Assoc.insert url chart) h.charts, h.failures, h.retains, h.histories⟩
  | seed release =>
    exact ⟨rfl, h.setHistory ((h.history release.key).append_singleton release)⟩
  | failOn op reason =>
    exact ⟨rfl, h.charts, congrArg (Assoc.insert op reason) h.failures, h.retains, h.histories⟩
  | clearFailures => exact ⟨rfl, h.charts, rfl, h.retains, h.histories⟩

/-- **A run.** Side by side, the two package managers show the same until a rollback is diverted. -/
theorem Behind.trace_eq_iff (h : Behind limit kept all) (events : List Event)
    (hlimit : limit ≠ 0) :
    trace limit kept events = trace 0 all events ↔ ¬Diverts limit kept all events := by
  induction events generalizing kept all with
  | nil => exact iff_of_true rfl not_diverts_nil
  | cons event events ih =>
    rw [diverts_cons, not_or]
    unfold trace
    rw [List.cons.injEq]
    by_cases hevent : ∃ key given, event = .request (.rollback key given) ∧ Diverted kept all key
    · refine iff_of_false ?_ fun hnot => hnot.1 hevent
      obtain ⟨key, given, rfl, hdiverted⟩ := hevent
      rintro ⟨hhead, -⟩
      have hanswer : (kept.rollback key limit).1.map some = (all.rollback key 0).1.map some :=
        congrArg Prod.fst hhead
      exact hdiverted.answer_ne h hlimit (Fault.map_injective (Option.some_injective _) hanswer)
    · have hstep : InStep limit (kept.happen limit event) (all.happen 0 event) :=
        inStep_happen h hlimit fun key given heq hdiverted => hevent ⟨key, given, heq, hdiverted⟩
      rw [ih hstep.behind, and_iff_right hevent, hstep.answer]
      refine and_iff_right ?_
      exact congrArg (Prod.mk _) (funext (hstep.behind.current? hlimit))

theorem Behind.not_diverts {events : List Event} (h : Behind limit kept all) (hlimit : 2 ≤ limit) :
    ¬Diverts limit kept all events := by
  induction events generalizing kept all with
  | nil => exact not_diverts_nil
  | cons event events ih =>
    have hnot : ∀ key given, event = .request (.rollback key given) → ¬Diverted kept all key :=
      fun key _ _ => h.not_diverted hlimit key
    rw [diverts_cons, not_or]
    refine ⟨fun ⟨key, given, heq, hdiverted⟩ => hnot key given heq hdiverted, ih ?_⟩
    exact (inStep_happen h (by omega) hnot).behind

theorem historyLimit_ne_zero {settings : Settings} (h : settings.check = .ok ()) :
    settings.historyLimit ≠ 0 := by
  intro hzero
  unfold Settings.check at h
  rw [if_pos hzero] at h
  exact nomatch h

/-- **What a history limit changes.** From one start, whatever happens, a run under a limit that
settings allow shows the same as one that keeps every release, until a rollback is diverted; then
it does not, and the current release is deployed again. With a limit of two or more no rollback
is. -/
theorem trace_of_limit {settings : Settings} (hsettings : settings.check = .ok ()) (b : Backend)
    (events : List Event) :
    let limit := settings.historyLimit
    (trace limit b events = trace 0 b events ↔ ¬Diverts limit b b events) ∧
    (∀ before key given later, events = before ++ .request (.rollback key given) :: later →
      Diverted (b.after limit before) (b.after 0 before) key →
      ∃ current, (b.after limit before).current? key = some current ∧
        let again := current.redeployed (Release.nextRevision current.revision)
        let next := (b.after limit before).happen limit (.request (.rollback key given))
        next.1 = .ok (some again) ∧ next.2.current? key = some again) ∧
    (2 ≤ limit → trace limit b events = trace 0 b events) := by
  intro limit
  have hbehind := Behind.refl limit b
  have hiff := hbehind.trace_eq_iff events (historyLimit_ne_zero hsettings)
  refine ⟨hiff, fun before key given later _ hdiverted => ?_, fun hlimit =>
    hiff.mpr (hbehind.not_diverts hlimit)⟩
  obtain ⟨current, hcurrent, hanswer, hagain⟩ :=
    hdiverted.rollback (setup_after rfl before) limit
  exact ⟨current, hcurrent, congrArg (Except.map some) hanswer, hagain⟩

/-- A chart that is installed, changed twice and rolled back. -/
def changedTwice : List Event :=
  let key : ReleaseKey := ⟨"apps", "shop"⟩
  let url := "oci://charts/shop"
  [.register url ⟨"shop", "1.0.0", "size: 1\n"⟩, .request (.install key url default),
    .register url ⟨"shop", "2.0.0", "size: 2\n"⟩, .request (.upgrade key url default 0),
    .register url ⟨"shop", "3.0.0", "size: 3\n"⟩, .request (.upgrade key url default 0),
    .request (.rollback key 0)]

/-- Two of four releases are kept, and it goes back to the second. -/
theorem trace_of_limit_changedTwice :
    let settings : Settings := { Settings.standard with historyLimit := 2 }
    let key : ReleaseKey := ⟨"apps", "shop"⟩
    settings.check = .ok () ∧ 2 ≤ settings.historyLimit ∧
      trace 2 Backend.empty changedTwice = trace 0 Backend.empty changedTwice ∧
      ((Backend.empty.after 2 changedTwice).history key).map Release.revision = [3, 4] ∧
      ((Backend.empty.after 0 changedTwice).history key).map Release.revision = [1, 2, 3, 4] ∧
      ((Backend.empty.after 2 changedTwice).current? key).map Release.manifest =
        some "size: 2\n" := by
  intro settings key
  have hsettings : settings.check = .ok () := by decide
  have hlimit : 2 ≤ settings.historyLimit := by decide
  exact ⟨hsettings, hlimit, (trace_of_limit hsettings Backend.empty changedTwice).2.2 hlimit,
    by decide +kernel, by decide +kernel, by decide +kernel⟩

/-- **With a limit of one a rollback goes back to nothing else.** The current release is deployed
again, where the one before it would have been. -/
theorem trace_of_one :
    let settings : Settings := { Settings.standard with historyLimit := 1 }
    let key : ReleaseKey := ⟨"apps", "shop"⟩
    settings.check = .ok () ∧
      trace settings.historyLimit Backend.empty changedTwice ≠
        trace 0 Backend.empty changedTwice ∧
      ((Backend.empty.after 1 changedTwice).current? key).map Release.manifest =
        some "size: 3\n" ∧
      ((Backend.empty.after 0 changedTwice).current? key).map Release.manifest =
        some "size: 2\n" := by
  intro settings key
  have hanswers : (trace 1 Backend.empty changedTwice).map Prod.fst ≠
      (trace 0 Backend.empty changedTwice).map Prod.fst := by decide +kernel
  exact ⟨by decide, fun hsame => hanswers (congrArg _ hsame), by decide +kernel, by decide +kernel⟩

end Backend

end Chartkeeper
