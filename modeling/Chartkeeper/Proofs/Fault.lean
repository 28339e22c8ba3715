import Chartkeeper.Fault
/-!
# Results that may be faults

When steps that may fail are put together, the whole ends well exactly when every step does.
-/

namespace Chartkeeper.Fault

variable {α β ε : Type}

theorem bind_eq_ok {x : Except ε α} {f : α → Except ε β} {b : β} :
    (x >>= f) = .ok b ↔ ∃ a, x = .ok a ∧ f a = .ok b := by
  cases x with
  | error fault => simp [bind, Except.bind]
  | ok a => simp [bind, Except.bind]

theorem bind_eq_error {x : Except ε α} {f : α → Except ε β} {fault : ε} :
    (x >>= f) = .error fault ↔ x = .error fault ∨ ∃ a, x = .ok a ∧ f a = .error fault := by
  cases x with
  | error cause => simp [bind, Except.bind]
  | ok a => simp [bind, Except.bind]

theorem pure_eq_ok {a b : α} : (pure a : Except ε α) = .ok b ↔ a = b :=
  ⟨Except.ok.inj, congrArg _⟩

theorem map_injective {f : α → β} (hf : Function.Injective f) :
    Function.Injective (Except.map f : Except ε α → Except ε β) := by
  intro x y h
  cases x with
  | error fault =>
    cases y with
    | error fault' => exact congrArg Except.error (Except.error.inj h)
    | ok b => exact nomatch h
  | ok a =>
    cases y with
    | error fault' => exact nomatch h
    | ok b => exact congrArg Except.ok (hf (Except.ok.inj h))

theorem eq_ok_of_toOption {x : Except ε α} {a : α} (h : x.toOption = some a) : x = .ok a := by
  cases x with
  | error fault => exact nomatch h
  | ok b => exact congrArg _ (Option.some.inj h)

/-- Saying which step failed changes nothing about ending well. -/
@[simp] theorem during_eq_ok {step : String} {x : Except Fault α} {a : α} :
    during step x = .ok a ↔ x = .ok a := by
  cases x with
  | error fault => simp [during]
  | ok b => rfl

theorem during_eq_error {step : String} {x : Except Fault α} {fault : Fault} :
    during step x = .error fault ↔ ∃ cause, x = .error cause ∧ fault = .context step cause := by
  cases x with
  | error cause => simp [during, eq_comm]
  | ok b => simp [during]

end Chartkeeper.Fault
