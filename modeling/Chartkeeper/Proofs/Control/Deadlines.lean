import Chartkeeper.Proofs.Control.Protocol
/-!
# What a deadline does to a run

A run with a deadline is compared with the run without one, from the same state. They go together
call by call until a wait would pass the deadline. There the run with the deadline ends: its state
is the one that the call found, and nothing is cleaned up. A wait that ends at the very deadline is
carried out, and after it everything that does not wait.

- `run_of_elapsed_le`, `run_of_lt_elapsed`: the comparison for any program on any machine. Which of
  the two it is, is read off the time that the run without a deadline takes.
- `reconcile_of_deadline`: the comparison for a pass. What it is cut off in is a change of a
  release, and none of it is done.
-/

namespace Chartkeeper

variable {I : Interface} {σ α : Type} {m : Machine I σ}

/-- How long calls waited, each in the state that it found. -/
def Machine.waited (m : Machine I σ) : List (σ × I.Call) → Nat
  | [] => 0
  | (s, c) :: calls => m.wait s c + m.waited calls

theorem Machine.waited_cons (m : Machine I σ) (s : σ) (c : I.Call) (calls : List (σ × I.Call)) :
    m.waited ((s, c) :: calls) = m.wait s c + m.waited calls :=
  rfl

theorem overruns_some {limit elapsed wait : Nat} :
    overruns (some limit) elapsed wait = true ↔ 0 < wait ∧ limit < elapsed + wait := by
  simp [overruns]

namespace Program

variable {s : σ} {elapsed limit : Nat} {deadline : Option Nat}

/-! ## Steps of a run -/

theorem run_call {c : I.Call} {next : Except Fault (I.Answer c) → Program I α}
    (h : overruns deadline elapsed (m.wait s c) = false) :
    (call c next).run m deadline s elapsed =
      let rest := (next (m.effect s c).1).run m deadline (m.effect s c).2 (elapsed + m.wait s c)
      { rest with begun := (s, c) :: rest.begun } := by
  simp only [run, h, Bool.false_eq_true, if_false]

theorem run_call_of_overruns {c : I.Call} {next : Except Fault (I.Answer c) → Program I α}
    (h : overruns (some limit) elapsed (m.wait s c) = true) :
    (call c next).run m (some limit) s elapsed = .cutOff limit s c := by
  simp only [run, h, if_true, Option.getD_some]

/-- Time passes in waits only. -/
theorem elapsed_run (p : Program I α) (s : σ) (elapsed : Nat) :
    (p.run m none s elapsed).elapsed = elapsed + m.waited (p.run m none s elapsed).begun := by
  induction p generalizing s elapsed with
  | done result => rfl
  | call c next ih =>
      rw [run_call rfl]
      dsimp only
      rw [ih, Machine.waited_cons, Nat.add_assoc]

theorem le_elapsed_run (p : Program I α) (s : σ) (elapsed : Nat) :
    elapsed ≤ (p.run m none s elapsed).elapsed := by
  rw [elapsed_run]
  exact Nat.le_add_right _ _

/-! ## Runs that end in time, and runs that do not -/

/-- A deadline that the run without one meets makes no difference. -/
theorem run_of_elapsed_le {p : Program I α} (h : (p.run m none s elapsed).elapsed ≤ limit) :
    p.run m (some limit) s elapsed = p.run m none s elapsed := by
  induction p generalizing s elapsed with
  | done result => rfl
  | call c next ih =>
      rw [run_call rfl] at h
      have hlater := le_elapsed_run (m := m) (next (m.effect s c).1) (m.effect s c).2
        (elapsed + m.wait s c)
      have hfits : overruns (some limit) elapsed (m.wait s c) = false := by
        rw [← Bool.not_eq_true, overruns_some]
        exact fun hover => absurd (Nat.le_trans hlater h) (Nat.not_le_of_lt hover.2)
      rw [run_call hfits, run_call rfl]
      dsimp only
      rw [ih _ h]

/-- A deadline that it does not meet cuts it off in the first call whose wait would pass it. -/
theorem run_of_lt_elapsed {p : Program I α} (hstart : elapsed ≤ limit)
    (h : limit < (p.run m none s elapsed).elapsed) :
    ∃ before mid c after,
      (p.run m none s elapsed).begun = before ++ (mid, c) :: after ∧
      p.run m (some limit) s elapsed =
        ⟨.error (.deadlineExceeded limit), mid, limit, before ++ [(mid, c)]⟩ ∧
      elapsed + m.waited before ≤ limit ∧
      limit < elapsed + m.waited before + m.wait mid c := by
  induction p generalizing s elapsed with
  | done result => exact absurd hstart (Nat.not_le_of_lt h)
  | call c next ih =>
      rw [run_call rfl] at h ⊢
      by_cases hover : limit < elapsed + m.wait s c
      · have hwaits : 0 < m.wait s c := by omega
        refine ⟨[], s, c, _, rfl, ?_, hstart, hover⟩
        exact run_call_of_overruns (overruns_some.mpr ⟨hwaits, hover⟩)
      · have hfits : overruns (some limit) elapsed (m.wait s c) = false := by
          rw [← Bool.not_eq_true, overruns_some]
          exact fun hpasses => hover hpasses.2
        obtain ⟨before, mid, call, after, hbegun, hcut, hbefore, hpassed⟩ :=
          ih _ (Nat.le_of_not_lt hover) h
        refine ⟨(s, c) :: before, mid, call, after, ?_, ?_, ?_, ?_⟩
        · dsimp only
          rw [hbegun, List.cons_append]
        · rw [run_call hfits, hcut]
          rfl
        · rwa [Machine.waited_cons, ← Nat.add_assoc]
        · rwa [Machine.waited_cons, ← Nat.add_assoc]

end Program

/-! ## Waits in a world -/

namespace World

variable {α : Type} {w : World} {call : Port.Call}

/-- Only changes of a release wait. -/
theorem changes_of_wait (h : 0 < w.wait call) : call.changes = some .releases := by
  cases call with
  | install | upgrade | rollback | uninstall => rfl
  | _ => exact absurd h (Nat.lt_irrefl 0)

theorem wait_of_changes (h : call.changes = some .releases) : w.wait call = w.latency := by
  cases call with
  | install | upgrade | rollback | uninstall => rfl
  | apply | delete | updateRecord | updateStatus => exact nomatch Option.some.inj h
  | _ => exact nomatch h

theorem latency_effect (w : World) (call : Port.Call) :
    (w.effect call).2.latency = w.latency := by
  cases call <;> rfl

/-- No program changes how long a wait is. -/
theorem keeps_latency (latency : Nat) (p : Task α) :
    Program.Keeps troubled (fun s => s.latency = latency) p fun _ => True :=
  keeps_of_effect (fun s call hs => (latency_effect s call).trans hs) p

end World

/-! ## Passes with a deadline -/

namespace Controller

open World

/-- **A deadline only cuts a pass short.** If a pass without a deadline takes no longer than the
deadline, then it is what happens. Otherwise the pass fails at the deadline. It made the calls of
the pass without a deadline up to one that changes a release, and left everything as that call found
it, because the wait before it would have passed the deadline. -/
theorem reconcile_of_deadline (k : Controller) (c : Composition) (w : World) (limit : Nat) :
    let free := w.run none (k.reconcile c)
    let timed := w.run (some limit) (k.reconcile c)
    free.elapsed ≤ limit ∧ timed = free ∨
      limit < free.elapsed ∧ timed.result = .error (.deadlineExceeded limit) ∧
        timed.elapsed = limit ∧ ∃ before call after,
          free.begun = before ++ (timed.state, call) :: after ∧
          timed.begun = before ++ [(timed.state, call)] ∧
          call.changes = some .releases ∧
          machine.waited before ≤ limit ∧ limit < machine.waited before + w.latency := by
  intro free timed
  rcases Nat.lt_or_ge limit free.elapsed with hlate | hmet
  · obtain ⟨before, mid, call, after, hfree, htimed, hbefore, hpassed⟩ :=
      Program.run_of_lt_elapsed (Nat.zero_le limit) hlate
    have hcut : timed = ⟨.error (.deadlineExceeded limit), mid, limit, before ++ [(mid, call)]⟩ :=
      htimed
    rw [Nat.zero_add] at hbefore hpassed
    have hwaits : 0 < mid.wait call := Nat.lt_of_add_lt_add_left (Nat.lt_of_le_of_lt hbefore hpassed)
    have hchanges := changes_of_wait hwaits
    have hgoes : (k.reconcile c).Goes troubled w free.begun free.result free.state :=
      goes_of_run w _
    have hlatency : mid.latency = w.latency := by
      refine (keeps_latency w.latency (k.reconcile c)).begun rfl hgoes (mid, call) ?_
      rw [show free.begun = _ from hfree]
      exact List.mem_append_right before List.mem_cons_self
    rw [show machine.wait mid call = _ from wait_of_changes hchanges, hlatency] at hpassed
    rw [hcut]
    exact Or.inr ⟨hlate, rfl, rfl, before, call, after, hfree, rfl, hchanges, hbefore, hpassed⟩
  · exact Or.inl ⟨hmet, Program.run_of_elapsed_le hmet⟩

/-- A world in which an upgrade of a record's release was cut short, and changes of a release take
their time. -/
def slow : World :=
  { interrupted with latency := 10 }

/-- The pass rolls the release back and then upgrades it. A deadline at the end of the second wait
leaves it whole; one within that wait comes after the first one, and before the upgrade. -/
theorem reconcile_of_deadline_slow :
    let pass := Controller.sample.reconcile .sample
    slow.run (some 20) pass = slow.run none pass ∧
      (slow.run (some 15) pass).result = .error (.deadlineExceeded 15) ∧
      ∃ before call after,
        (slow.run none pass).begun = before ++ ((slow.run (some 15) pass).state, call) :: after ∧
        call.changes = some .releases ∧ 0 < machine.waited before := by
  have helapsed : (slow.run none (Controller.sample.reconcile .sample)).elapsed = 20 := by
    decide +kernel
  have hlatency : slow.latency = 10 := rfl
  -- The world becomes a variable before the theorem is applied, so that no run is evaluated then.
  generalize slow = w at helapsed hlatency ⊢
  intro pass
  have hwhole : w.run (some 20) pass = w.run none pass := by
    rcases reconcile_of_deadline Controller.sample .sample w 20 with ⟨-, hsame⟩ | ⟨hlate, -⟩
    · exact hsame
    · exact absurd helapsed (Nat.ne_of_gt hlate)
  rcases reconcile_of_deadline Controller.sample .sample w 15 with ⟨hmet, -⟩ | ⟨-, hcut⟩
  · exact absurd hmet (by rw [helapsed]; decide)
  · obtain ⟨hresult, -, before, call, after, hfree, -, hchanges, -, hpassed⟩ := hcut
    rw [hlatency] at hpassed
    exact ⟨hwhole, hresult, before, call, after, hfree, hchanges, by omega⟩

end Controller

end Chartkeeper
