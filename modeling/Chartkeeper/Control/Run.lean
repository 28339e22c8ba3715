import Chartkeeper.Control.Program
/-!
# Runs

A machine answers the calls of programs from a state, and says how long each call waits before
it takes effect. A run of a program on a machine keeps what was called, and in which state. With
a deadline, a call whose wait would pass it is cut off: the run ends at the deadline, and the
call has no effect. A wait that ends exactly at the deadline is not cut off.
-/

namespace Chartkeeper

variable {I : Interface} {σ α : Type}

/-- What answers calls. Waits are in milliseconds. -/
structure Machine (I : Interface) (σ : Type) where
  wait : σ → I.Call → Nat
  effect : σ → (c : I.Call) → Except Fault (I.Answer c) × σ

/-- How a run ended. -/
structure Run (I : Interface) (σ α : Type) where
  result : Except Fault α
  state : σ
  elapsed : Nat
  /-- The calls that were begun, each with the state that it found. -/
  begun : List (σ × I.Call)

/-- Whether a wait would pass a deadline. -/
def overruns (deadline : Option Nat) (elapsed wait : Nat) : Bool :=
  match deadline with
  -- a call that does not wait is carried out even after the deadline
  | some limit => 0 < wait && limit < elapsed + wait
  | none => false

/-- How a run ends that was cut off before a call took effect. -/
def Run.cutOff (limit : Nat) (s : σ) (c : I.Call) : Run I σ α :=
  ⟨.error (.deadlineExceeded limit), s, limit, [(s, c)]⟩

/-- Runs a program from a state, with the time that has passed already. -/
def Program.run (m : Machine I σ) (deadline : Option Nat) : Program I α → σ → Nat → Run I σ α
  | .done result, s, elapsed => ⟨result, s, elapsed, []⟩
  | .call c next, s, elapsed =>
    let wait := m.wait s c
    if overruns deadline elapsed wait then .cutOff (deadline.getD 0) s c
    else
      let (answer, after) := m.effect s c
      let rest := (next answer).run m deadline after (elapsed + wait)
      { rest with begun := (s, c) :: rest.begun }

/-- Runs a program from a state, without a deadline. -/
def Program.runFree (m : Machine I σ) (p : Program I α) (s : σ) : Run I σ α :=
  p.run m none s 0

/-- The calls that were begun. -/
def Run.calls (r : Run I σ α) : List I.Call :=
  r.begun.map Prod.snd

end Chartkeeper
