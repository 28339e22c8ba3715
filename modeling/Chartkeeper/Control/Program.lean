import Chartkeeper.Fault
/-!
# Programs

A program that works through calls to the outside is a tree: it is done, with a value or a
fault, or it makes a call and goes on with whatever the call is answered with, a fault
included. Nothing is said of how calls are answered; that is for a machine to say.
-/

namespace Chartkeeper

/-- Calls to the outside, and what each of them is answered with. -/
structure Interface where
  Call : Type
  Answer : Call → Type

/-- A program over an interface. -/
inductive Program (I : Interface) (α : Type) : Type where
  | done (result : Except Fault α)
  | call (c : I.Call) (next : Except Fault (I.Answer c) → Program I α)

namespace Program

variable {I : Interface} {α β : Type}

/-- Goes on with a second program when the first ends well. -/
def bind : Program I α → (α → Program I β) → Program I β
  | .done (.ok a), f => f a
  | .done (.error fault), _ => .done (.error fault)
  | .call c next, f => .call c fun answer => (next answer).bind f

instance : Monad (Program I) where
  pure a := .done (.ok a)
  bind := bind

instance : MonadLift (Except Fault) (Program I) := ⟨.done⟩

/-- Ends with a fault. -/
def fail (fault : Fault) : Program I α :=
  .done (.error fault)

/-- Makes a call; if it fails, so does the program. -/
def ask (c : I.Call) : Program I (I.Answer c) :=
  .call c .done

/-- The way a program ends, as a value. -/
def outcome : Program I α → Program I (Except Fault α)
  | .done result => .done (.ok result)
  | .call c next => .call c fun answer => (next answer).outcome

/-- Says during which step a program failed. -/
def during (step : String) : Program I α → Program I α
  | .done result => .done (Fault.during step result)
  | .call c next => .call c fun answer => (next answer).during step

/-- Runs a program for each item, in order. -/
def each {γ : Type} (f : γ → Program I Unit) : List γ → Program I Unit
  | [] => pure ()
  | item :: rest => do
    f item
    each f rest

end Program

end Chartkeeper
