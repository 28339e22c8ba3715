import Chartkeeper.Proofs.Control.Reach
/-!
# What programs do on the way

How a program can end does not say what it did before. Here the calls that lead to an end are kept,
each with the state that it found. A run that is broken off has begun the first of them, whether a
fault or a deadline broke it off.

Two kinds of statements are made about calls. A program *follows* a plan when what is seen of its
calls begins as the plan does, and is all of the plan when the program ends well. It *heeds* a
condition when each call is made in a state in which the condition allows it. Both are put together
along a sequence: plans are appended, and a condition is carried on from state to state.
-/

namespace Chartkeeper

variable {I : Interface} {σ α β γ : Type}

namespace Program

/-- From a state, a program can make these calls, each in the state that it found, and then end
with a result and in a state. -/
def Goes (A : Conduct I σ) : Program I α → σ → List (σ × I.Call) → Except Fault α → σ → Prop
  | .done result, s, calls, r, t => calls = [] ∧ r = result ∧ t = s
  | .call c next, s, calls, r, t => ∃ answer mid rest,
      A s c answer mid ∧ (next answer).Goes A mid rest r t ∧ calls = (s, c) :: rest

/-- From a state, a program can have made these calls when it is broken off. -/
def Begins (A : Conduct I σ) (p : Program I α) (s : σ) (calls : List (σ × I.Call)) : Prop :=
  ∃ rest r t, p.Goes A s (calls ++ rest) r t

variable {A : Conduct I σ} {s t : σ} {calls : List (σ × I.Call)} {P : I.Call → Prop}

theorem Goes.ends {p : Program I α} {r : Except Fault α} (h : p.Goes A s calls r t) :
    p.Ends A s r t := by
  induction p generalizing s calls with
  | done result => exact h.2
  | call c next ih =>
      obtain ⟨answer, mid, rest, hc, hn, -⟩ := h
      exact ⟨answer, mid, hc, ih answer hn⟩

theorem Goes.begins {p : Program I α} {r : Except Fault α} (h : p.Goes A s calls r t) :
    p.Begins A s calls :=
  ⟨[], r, t, by rw [List.append_nil]; exact h⟩

theorem Goes.mono {B : Conduct I σ} {p : Program I α} {r : Except Fault α}
    (wider : ∀ s c answer t, A s c answer t → B s c answer t) (h : p.Goes A s calls r t) :
    p.Goes B s calls r t := by
  induction p generalizing s calls with
  | done result => exact h
  | call c next ih =>
      obtain ⟨answer, mid, rest, hc, hn, hcalls⟩ := h
      exact ⟨answer, mid, rest, wider _ _ _ _ hc, ih answer hn, hcalls⟩

/-! ## Calls along a sequence -/

/-- The calls of a sequence are those of its first part, followed by those of its second part if
the first ended well. -/
theorem goes_bind {p : Program I α} {f : α → Program I β} {r : Except Fault β}
    (h : (p >>= f).Goes A s calls r t) :
    (∃ fault, p.Goes A s calls (.error fault) t ∧ r = .error fault) ∨
      ∃ a mid first rest, p.Goes A s first (.ok a) mid ∧ (f a).Goes A mid rest r t ∧
        calls = first ++ rest := by
  change (p.bind f).Goes A s calls r t at h
  induction p generalizing s calls with
  | done result =>
      cases result with
      | ok a => exact Or.inr ⟨a, s, [], calls, ⟨rfl, rfl, rfl⟩, h, rfl⟩
      | error fault => exact Or.inl ⟨fault, ⟨h.1, rfl, h.2.2⟩, h.2.1⟩
  | call c next ih =>
      obtain ⟨answer, mid, rest, hc, hn, rfl⟩ := h
      rcases ih answer hn with ⟨fault, hp, rfl⟩ | ⟨a, m, first, rest', hp, hf, rfl⟩
      · exact Or.inl ⟨fault, ⟨answer, mid, rest, hc, hp, rfl⟩, rfl⟩
      · exact Or.inr ⟨a, m, (s, c) :: first, rest', ⟨answer, mid, first, hc, hp, rfl⟩, hf, rfl⟩

theorem goes_during {step : String} {p : Program I α} {r : Except Fault α}
    (h : (p.during step).Goes A s calls r t) :
    ∃ r₀, p.Goes A s calls r₀ t ∧ r = Fault.during step r₀ := by
  induction p generalizing s calls with
  | done result => exact ⟨result, ⟨h.1, rfl, h.2.2⟩, h.2.1⟩
  | call c next ih =>
      obtain ⟨answer, mid, rest, hc, hn, rfl⟩ := h
      obtain ⟨r₀, hp, hr⟩ := ih answer hn
      exact ⟨r₀, ⟨answer, mid, rest, hc, hp, rfl⟩, hr⟩

theorem goes_outcome {p : Program I α} {r : Except Fault (Except Fault α)}
    (h : p.outcome.Goes A s calls r t) : ∃ r₀, p.Goes A s calls r₀ t ∧ r = .ok r₀ := by
  induction p generalizing s calls with
  | done result => exact ⟨result, ⟨h.1, rfl, h.2.2⟩, h.2.1⟩
  | call c next ih =>
      obtain ⟨answer, mid, rest, hc, hn, rfl⟩ := h
      obtain ⟨r₀, hp, hr⟩ := ih answer hn
      exact ⟨r₀, ⟨answer, mid, rest, hc, hp, rfl⟩, hr⟩

/-- No other calls are made than the program has. -/
theorem Only.made {p : Program I α} {r : Except Fault α} (hp : p.Only P)
    (h : p.Goes A s calls r t) : ∀ begun ∈ calls, P begun.2 := by
  induction p generalizing s calls with
  | done result =>
      intro begun hbegun
      rw [h.1] at hbegun
      exact nomatch hbegun
  | call c next ih =>
      obtain ⟨answer, mid, rest, -, hn, rfl⟩ := h
      intro begun hbegun
      rcases List.mem_cons.mp hbegun with rfl | hlater
      · exact hp.1
      · exact ih answer (hp.2 answer) hn begun hlater

/-- What every call of a program keeps related, holds between its start and each of its calls. -/
theorem Only.goes {R : σ → σ → Prop} {p : Program I α} {r : Except Fault α} (hp : p.Only P)
    (refl : ∀ s, R s s) (trans : ∀ s t u, R s t → R t u → R s u)
    (step : ∀ s c answer t, P c → A s c answer t → R s t) (h : p.Goes A s calls r t) :
    ∀ begun ∈ calls, R s begun.1 := by
  induction p generalizing s calls with
  | done result =>
      intro begun hbegun
      rw [h.1] at hbegun
      exact nomatch hbegun
  | call c next ih =>
      obtain ⟨answer, mid, rest, hc, hn, rfl⟩ := h
      intro begun hbegun
      rcases List.mem_cons.mp hbegun with rfl | hlater
      · exact refl s
      · exact trans s mid _ (step s c answer mid hp.1 hc) (ih answer (hp.2 answer) hn begun hlater)

/-! ## Plans -/

variable {view : I.Call → Option γ} {plan plan' : List γ}

/-- What is seen of the calls of a run. -/
def seen (view : I.Call → Option γ) (calls : List (σ × I.Call)) : List γ :=
  calls.filterMap fun begun => view begun.2

/-- What is seen of a run begins as a plan does, and is all of it if the run ends well. -/
def Follows (A : Conduct I σ) (view : I.Call → Option γ) (s : σ) (p : Program I α)
    (plan : List γ) : Prop :=
  ∀ ⦃calls r t⦄, p.Goes A s calls r t →
    seen view calls <+: plan ∧ ∀ a, r = .ok a → seen view calls = plan

theorem Follows.begins {p : Program I α} (hp : p.Follows A view s plan)
    (h : p.Begins A s calls) : seen view calls <+: plan := by
  obtain ⟨rest, r, t, hgoes⟩ := h
  have hbegun : seen view calls <+: seen view (calls ++ rest) := by
    unfold seen
    rw [List.filterMap_append]
    exact List.prefix_append _ _
  exact hbegun.trans (hp hgoes).1

/-- A program none of whose calls are seen follows the empty plan. -/
theorem follows_of_only {p : Program I α} (hp : p.Only fun c => view c = none) :
    p.Follows A view s [] := by
  intro calls r t h
  have hnone : seen view calls = [] :=
    List.filterMap_eq_nil_iff.mpr fun begun hbegun => hp.made h begun hbegun
  rw [hnone]
  exact ⟨List.prefix_rfl, fun _ _ => rfl⟩

theorem follows_pure {a : α} : (pure a : Program I α).Follows A view s [] :=
  follows_of_only only_pure

/-- What fails at once may leave any plan undone. -/
theorem follows_fail {fault : Fault} : (fail fault : Program I α).Follows A view s plan := by
  rintro calls r t ⟨rfl, rfl, -⟩
  exact ⟨List.nil_prefix, nofun⟩

theorem follows_ask {c : I.Call} {v : γ} (hv : view c = some v) :
    (ask c : Program I (I.Answer c)).Follows A view s [v] := by
  rintro calls r t ⟨answer, mid, rest, -, ⟨rfl, -⟩, rfl⟩
  have hseen : seen view [(s, c)] = [v] := by
    simp only [seen, List.filterMap_cons, hv, List.filterMap_nil]
  rw [hseen]
  exact ⟨List.prefix_rfl, fun _ _ => rfl⟩

/-- One plan after the other. -/
theorem follows_bind {p : Program I α} {f : α → Program I β} (hp : p.Follows A view s plan)
    (hf : ∀ a mid, p.Ends A s (.ok a) mid → (f a).Follows A view mid plan') :
    (p >>= f).Follows A view s (plan ++ plan') := by
  intro calls r t h
  rcases goes_bind h with ⟨fault, hstop, rfl⟩ | ⟨a, mid, first, rest, hfirst, hrest, rfl⟩
  · exact ⟨(hp hstop).1.trans (List.prefix_append _ _), nofun⟩
  · obtain ⟨hbegun, hall⟩ := hf a mid hfirst.ends hrest
    unfold seen at hbegun hall ⊢
    rw [List.filterMap_append, show first.filterMap (fun begun => view begun.2) = plan from
      (hp hfirst).2 a rfl]
    exact ⟨(List.prefix_append_right_inj plan).mpr hbegun, fun b hb => by rw [hall b hb]⟩

theorem follows_during {step : String} {p : Program I α} (hp : p.Follows A view s plan) :
    (p.during step).Follows A view s plan := by
  intro calls r t h
  obtain ⟨r₀, hgoes, rfl⟩ := goes_during h
  refine ⟨(hp hgoes).1, fun a ha => ?_⟩
  exact (hp hgoes).2 a (Fault.during_eq_ok.mp ha)

/-! ## Conditions on calls -/

variable {Φ : σ → I.Call → Prop}

/-- Each call of a run is made in a state in which a condition allows it. -/
def Heeds (A : Conduct I σ) (Φ : σ → I.Call → Prop) (s : σ) (p : Program I α) : Prop :=
  ∀ ⦃calls r t⦄, p.Goes A s calls r t → ∀ begun ∈ calls, Φ begun.1 begun.2

theorem Heeds.begins {p : Program I α} (hp : p.Heeds A Φ s) (h : p.Begins A s calls) :
    ∀ begun ∈ calls, Φ begun.1 begun.2 := by
  obtain ⟨rest, r, t, hgoes⟩ := h
  exact fun begun hbegun => hp hgoes begun (List.mem_append_left rest hbegun)

theorem heeds_of_only {p : Program I α} (hp : p.Only fun c => ∀ s, Φ s c) : p.Heeds A Φ s :=
  fun _ _ _ h begun hbegun => hp.made h begun hbegun begun.1

theorem heeds_ask {c : I.Call} (h : Φ s c) : (ask c : Program I (I.Answer c)).Heeds A Φ s := by
  rintro calls r t ⟨answer, mid, rest, -, ⟨rfl, -⟩, rfl⟩ begun hbegun
  rw [List.mem_singleton.mp hbegun]
  exact h

theorem heeds_bind {p : Program I α} {f : α → Program I β} (hp : p.Heeds A Φ s)
    (hf : ∀ a mid, p.Ends A s (.ok a) mid → (f a).Heeds A Φ mid) : (p >>= f).Heeds A Φ s := by
  intro calls r t h
  rcases goes_bind h with ⟨fault, hstop, -⟩ | ⟨a, mid, first, rest, hfirst, hrest, rfl⟩
  · exact hp hstop
  · intro begun hbegun
    rcases List.mem_append.mp hbegun with hearly | hlate
    · exact hp hfirst begun hearly
    · exact hf a mid hfirst.ends hrest begun hlate

theorem heeds_during {step : String} {p : Program I α} (hp : p.Heeds A Φ s) :
    (p.during step).Heeds A Φ s := by
  intro calls r t h
  obtain ⟨r₀, hgoes, -⟩ := goes_during h
  exact hp hgoes

theorem heeds_outcome {p : Program I α} (hp : p.Heeds A Φ s) : p.outcome.Heeds A Φ s := by
  intro calls r t h
  obtain ⟨r₀, hgoes, -⟩ := goes_outcome h
  exact hp hgoes

/-! ## Runs on a machine -/

/-- A run without a deadline goes as its machine answers. -/
theorem goes_run {m : Machine I σ} (p : Program I α) (s : σ) (elapsed : Nat) :
    p.Goes (.ofMachine m) s (p.run m none s elapsed).begun (p.run m none s elapsed).result
      (p.run m none s elapsed).state := by
  induction p generalizing s elapsed with
  | done result => exact ⟨rfl, rfl, rfl⟩
  | call c next ih => exact ⟨(m.effect s c).1, (m.effect s c).2, _, rfl, ih _ _ _, rfl⟩

/-- When all calls can fail without effect, a program can go on to an end where it is. -/
theorem goes_still (p : Program I α) (s : σ) : ∃ calls r, p.Goes A.troubled s calls r s := by
  induction p with
  | done result => exact ⟨[], result, rfl, rfl, rfl⟩
  | call c next ih =>
      obtain ⟨calls, r, h⟩ := ih (.error (.deadlineExceeded 0))
      exact ⟨(s, c) :: calls, r, _, s, calls, Or.inr ⟨⟨_, rfl⟩, rfl⟩, h, rfl⟩

/-- When calls can fail, a program can end in any state in which it makes a call. -/
theorem Goes.ends_begun {p : Program I α} {r : Except Fault α} (h : p.Goes A.troubled s calls r t) :
    ∀ begun ∈ calls, ∃ r, p.Ends A.troubled s r begun.1 := by
  induction p generalizing s calls with
  | done result =>
      intro begun hbegun
      rw [h.1] at hbegun
      exact nomatch hbegun
  | call c next ih =>
      obtain ⟨answer, mid, rest, hc, hn, rfl⟩ := h
      intro begun hbegun
      rcases List.mem_cons.mp hbegun with rfl | hlater
      · exact ends_still _ s
      · obtain ⟨r, hends⟩ := ih answer hn begun hlater
        exact ⟨r, answer, mid, hc, hends⟩

/-- What a program keeps wherever it ends, its calls find. -/
theorem Keeps.begun {Inv : σ → Prop} {Q : α → Prop} {p : Program I α} {r : Except Fault α}
    (hp : p.Keeps A.troubled Inv Q) (hs : Inv s) (h : p.Goes A.troubled s calls r t) :
    ∀ begun ∈ calls, Inv begun.1 := by
  intro begun hbegun
  obtain ⟨_, hends⟩ := h.ends_begun begun hbegun
  exact (hp hs hends).1

/-- A run goes as its program can when calls fail, even if a deadline cuts it off: the call that was
cut off and all after it fail without effect. -/
theorem goes_of_run {m : Machine I σ} (p : Program I α) (deadline : Option Nat) (s : σ)
    (elapsed : Nat) :
    ∃ rest r, p.Goes (Conduct.ofMachine m).troubled s
      ((p.run m deadline s elapsed).begun ++ rest) r (p.run m deadline s elapsed).state := by
  induction p generalizing s elapsed with
  | done result => exact ⟨[], result, rfl, rfl, rfl⟩
  | call c next ih =>
      by_cases hcut : overruns deadline elapsed (m.wait s c) = true
      · obtain ⟨rest, r, h⟩ := goes_still (A := Conduct.ofMachine m)
          (next (.error (.deadlineExceeded 0))) s
        simp only [run, hcut]
        exact ⟨rest, r, _, s, rest, Or.inr ⟨⟨_, rfl⟩, rfl⟩, h, rfl⟩
      · obtain ⟨rest, r, h⟩ := ih (m.effect s c).1 (m.effect s c).2 (elapsed + m.wait s c)
        simp only [run, hcut]
        exact ⟨rest, r, _, _, _, Or.inl rfl, h, rfl⟩

theorem begins_run {m : Machine I σ} (p : Program I α) (deadline : Option Nat) (s : σ)
    (elapsed : Nat) :
    p.Begins (Conduct.ofMachine m).troubled s (p.run m deadline s elapsed).begun := by
  obtain ⟨rest, r, h⟩ := goes_of_run (m := m) p deadline s elapsed
  exact ⟨rest, r, _, h⟩

end Program

/-- A run in a world without a deadline goes as it can when calls can fail. -/
theorem World.goes_of_run (w : World) (p : Task α) :
    p.Goes World.troubled w (w.run none p).begun (w.run none p).result (w.run none p).state :=
  (Program.goes_run (m := World.machine) p w 0).mono fun _ _ _ _ => Or.inl

/-- Whatever a task leaves alone is at each of its calls as it was at the start. -/
theorem Leaves.begun {x : Holding} {p : Task α} {w w' : World}
    {calls : List (World × Port.Call)} {r : Except Fault α} (hp : Leaves x p)
    (h : p.Goes World.troubled w calls r w') : ∀ begun ∈ calls, World.Same x w begun.1 :=
  Program.Only.goes hp (World.same_refl x) (fun _ _ _ => World.Same.trans)
    (World.related_of_effect (World.same_refl x) fun s _ hcall => World.same_effect hcall s) h

end Chartkeeper
