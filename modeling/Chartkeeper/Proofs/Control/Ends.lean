import Chartkeeper.Control.Run
/-!
# How programs can end

A run answers every call in one way. Here a program is followed under a *conduct*, which says for
each call in each state which answers may come and what state they leave. A conduct may answer as
a machine does, may let calls fail on top of that, or may leave out the answers that are faults;
the laws below hold for all of them alike.

`Ends` follows the tree of the program, and has one law for each way in which programs are put
together. `Keeps` packages the induction over a run: what every single step keeps, every run
keeps, however it ends.
-/

namespace Chartkeeper

variable {I : Interface} {σ α β : Type}

/-- The answers that may come to a call in a state, each with the state that it leaves. -/
abbrev Conduct (I : Interface) (σ : Type) : Type :=
  σ → (c : I.Call) → Except Fault (I.Answer c) → σ → Prop

namespace Conduct

/-- Calls are answered as a machine answers them. -/
def ofMachine (m : Machine I σ) : Conduct I σ :=
  fun s c answer t => m.effect s c = (answer, t)

/-- Any call may also fail, with any fault and without effect. -/
def troubled (A : Conduct I σ) : Conduct I σ :=
  fun s c answer t => A s c answer t ∨ (∃ fault, answer = .error fault) ∧ t = s

/-- No call fails. -/
def serving (A : Conduct I σ) : Conduct I σ :=
  fun s c answer t => A s c answer t ∧ ∃ a, answer = .ok a

end Conduct

namespace Program

/-- From a state, a program can end with a result and in a state. -/
def Ends (A : Conduct I σ) : Program I α → σ → Except Fault α → σ → Prop
  | .done result, s, r, t => r = result ∧ t = s
  | .call c next, s, r, t => ∃ answer mid, A s c answer mid ∧ (next answer).Ends A mid r t

variable {A B : Conduct I σ} {s t : σ}

/-! ## One law for each way of putting programs together -/

/-- Programs may be cut into parts anywhere. -/
theorem bind_assoc {γ : Type} (p : Program I α) (f : α → Program I β) (g : β → Program I γ) :
    p >>= f >>= g = p >>= fun a => f a >>= g := by
  change (p.bind f).bind g = p.bind fun a => (f a).bind g
  induction p with
  | done result =>
      cases result with
      | ok a => rfl
      | error fault => rfl
  | call c next ih => exact congrArg (Program.call c) (funext ih)

theorem ends_ask {c : I.Call} {r : Except Fault (I.Answer c)} :
    (ask c : Program I (I.Answer c)).Ends A s r t ↔ A s c r t := by
  constructor
  · rintro ⟨answer, mid, h, rfl, rfl⟩
    exact h
  · intro h
    exact ⟨r, t, h, rfl, rfl⟩

/-- A sequence ends where its first part fails, or where its second part ends. -/
theorem ends_bind {p : Program I α} {f : α → Program I β} {r : Except Fault β} :
    (p >>= f).Ends A s r t ↔
      (∃ fault, p.Ends A s (.error fault) t ∧ r = .error fault) ∨
      (∃ a mid, p.Ends A s (.ok a) mid ∧ (f a).Ends A mid r t) := by
  change (p.bind f).Ends A s r t ↔ _
  induction p generalizing s with
  | done result =>
      cases result with
      | ok a =>
          constructor
          · intro h
            exact Or.inr ⟨a, s, ⟨rfl, rfl⟩, h⟩
          · rintro (⟨_, ⟨h, -⟩, -⟩ | ⟨_, _, ⟨h, rfl⟩, hf⟩)
            · exact nomatch h
            · exact Except.ok.inj h ▸ hf
      | error fault =>
          constructor
          · rintro ⟨rfl, rfl⟩
            exact Or.inl ⟨fault, ⟨rfl, rfl⟩, rfl⟩
          · rintro (⟨_, ⟨h, rfl⟩, rfl⟩ | ⟨_, _, ⟨h, -⟩, -⟩)
            · exact ⟨congrArg _ (Except.error.inj h), rfl⟩
            · exact nomatch h
  | call c next ih =>
      simp only [bind, Ends, ih]
      constructor
      · rintro ⟨answer, mid, h, ⟨fault, hp, rfl⟩ | ⟨a, m, hp, hf⟩⟩
        · exact Or.inl ⟨fault, ⟨answer, mid, h, hp⟩, rfl⟩
        · exact Or.inr ⟨a, m, ⟨answer, mid, h, hp⟩, hf⟩
      · rintro (⟨fault, ⟨answer, mid, h, hp⟩, rfl⟩ | ⟨a, m, ⟨answer, mid, h, hp⟩, hf⟩)
        · exact ⟨answer, mid, h, Or.inl ⟨fault, hp, rfl⟩⟩
        · exact ⟨answer, mid, h, Or.inr ⟨a, m, hp, hf⟩⟩

/-- A sequence that ends well went through both of its parts. -/
theorem ends_bind_ok {p : Program I α} {f : α → Program I β} {b : β} :
    (p >>= f).Ends A s (.ok b) t ↔
      ∃ a mid, p.Ends A s (.ok a) mid ∧ (f a).Ends A mid (.ok b) t := by
  rw [ends_bind]
  simp

theorem ends_during {step : String} {p : Program I α} {r : Except Fault α} :
    (p.during step).Ends A s r t ↔ ∃ r₀, p.Ends A s r₀ t ∧ r = Fault.during step r₀ := by
  induction p generalizing s with
  | done result =>
      constructor
      · rintro ⟨rfl, rfl⟩
        exact ⟨result, ⟨rfl, rfl⟩, rfl⟩
      · rintro ⟨_, ⟨rfl, rfl⟩, rfl⟩
        exact ⟨rfl, rfl⟩
  | call c next ih =>
      simp only [during, Ends, ih]
      constructor
      · rintro ⟨answer, mid, h, r₀, hp, rfl⟩
        exact ⟨r₀, ⟨answer, mid, h, hp⟩, rfl⟩
      · rintro ⟨r₀, ⟨answer, mid, h, hp⟩, rfl⟩
        exact ⟨answer, mid, h, r₀, hp, rfl⟩

/-- Saying which step failed changes nothing about ending well. -/
theorem ends_during_ok {step : String} {p : Program I α} {a : α} :
    (p.during step).Ends A s (.ok a) t ↔ p.Ends A s (.ok a) t := by
  rw [ends_during]
  constructor
  · rintro ⟨r₀, hp, h⟩
    cases r₀ with
    | ok b => rwa [h]
    | error fault => exact nomatch h
  · intro hp
    exact ⟨.ok a, hp, rfl⟩

theorem ends_outcome {p : Program I α} {r : Except Fault (Except Fault α)} :
    p.outcome.Ends A s r t ↔ ∃ r₀, p.Ends A s r₀ t ∧ r = .ok r₀ := by
  induction p generalizing s with
  | done result =>
      constructor
      · rintro ⟨rfl, rfl⟩
        exact ⟨result, ⟨rfl, rfl⟩, rfl⟩
      · rintro ⟨_, ⟨rfl, rfl⟩, rfl⟩
        exact ⟨rfl, rfl⟩
  | call c next ih =>
      simp only [outcome, Ends, ih]
      constructor
      · rintro ⟨answer, mid, h, r₀, hp, rfl⟩
        exact ⟨r₀, ⟨answer, mid, h, hp⟩, rfl⟩
      · rintro ⟨r₀, ⟨answer, mid, h, hp⟩, rfl⟩
        exact ⟨answer, mid, h, r₀, hp, rfl⟩

theorem ends_during_error {step : String} {p : Program I α} {fault : Fault}
    (h : (p.during step).Ends A s (.error fault) t) :
    ∃ fault₀, p.Ends A s (.error fault₀) t := by
  obtain ⟨r₀, hp, hr⟩ := ends_during.mp h
  cases r₀ with
  | ok b => exact nomatch hr
  | error fault₀ => exact ⟨fault₀, hp⟩

/-- Where each part leaves a mark if it ends well and none if it fails, the first parts left theirs,
and all of them if the whole ended well. -/
theorem ends_each {γ ρ : Type} {f : γ → Program I Unit} {r : Except Fault Unit} (view : σ → ρ)
    (mark : ρ → γ → ρ)
    (hok : ∀ x s t, (f x).Ends A s (.ok ()) t → view t = mark (view s) x)
    (herror : ∀ x s t fault, (f x).Ends A s (.error fault) t → view t = view s) :
    ∀ {items : List γ} {s : σ}, (each f items).Ends A s r t →
      ∃ first, first <+: items ∧ view t = first.foldl mark (view s) ∧
        (r = .ok () → first = items)
  | [], _, h => by
      obtain ⟨-, rfl⟩ := h
      exact ⟨[], List.prefix_rfl, rfl, fun _ => rfl⟩
  | x :: rest, s, h => by
      rcases ends_bind.mp h with ⟨fault, hx, rfl⟩ | ⟨_, mid, hx, hrest⟩
      · exact ⟨[], List.nil_prefix, herror x s t fault hx, nofun⟩
      · obtain ⟨first, hfirst, hview, hall⟩ := ends_each view mark hok herror hrest
        refine ⟨x :: first, List.cons_prefix_cons.mpr ⟨rfl, hfirst⟩, ?_, fun hr => by rw [hall hr]⟩
        rw [hview, hok x s mid hx, List.foldl_cons]

/-- What one conduct allows, a wider one allows too. -/
theorem Ends.mono {p : Program I α} {r : Except Fault α}
    (wider : ∀ s c answer t, A s c answer t → B s c answer t) (h : p.Ends A s r t) :
    p.Ends B s r t := by
  induction p generalizing s with
  | done result => exact h
  | call c next ih =>
      obtain ⟨answer, mid, hc, hn⟩ := h
      exact ⟨answer, mid, wider _ _ _ _ hc, ih answer hn⟩

/-! ## Programs that end well -/

/-- From a state, a program ends well, whatever its calls are answered with. -/
def Sure (A : Conduct I σ) (s : σ) (p : Program I α) : Prop :=
  ∀ ⦃r t⦄, p.Ends A s r t → ∃ a, r = .ok a

theorem sure_pure {a : α} : Sure A s (pure a : Program I α) := by
  rintro r t ⟨rfl, -⟩
  exact ⟨a, rfl⟩

theorem sure_lift {e : Except Fault α} {a : α} (h : e = .ok a) :
    Sure A s (liftM e : Program I α) := by
  rintro r t ⟨rfl, -⟩
  exact ⟨a, h⟩

theorem sure_ask {B : Conduct I σ} (c : I.Call) :
    Sure B.serving s (ask c : Program I (I.Answer c)) :=
  fun _ _ he => (ends_ask.mp he).2

theorem sure_bind {p : Program I α} {f : α → Program I β} (hp : Sure A s p)
    (hf : ∀ a mid, p.Ends A s (.ok a) mid → Sure A mid (f a)) : Sure A s (p >>= f) := by
  intro r t he
  rcases ends_bind.mp he with ⟨fault, hp', -⟩ | ⟨a, mid, hp', hf'⟩
  · obtain ⟨a, ha⟩ := hp hp'
    exact nomatch ha
  · exact hf a mid hp' hf'

theorem sure_during {step : String} {p : Program I α} (hp : Sure A s p) :
    Sure A s (p.during step) := by
  intro r t he
  obtain ⟨r₀, hp', rfl⟩ := ends_during.mp he
  obtain ⟨a, rfl⟩ := hp hp'
  exact ⟨a, rfl⟩

/-- The way a program ends can always be told. -/
theorem sure_outcome {p : Program I α} : Sure A s p.outcome := by
  intro r t he
  obtain ⟨r₀, -, rfl⟩ := ends_outcome.mp he
  exact ⟨r₀, rfl⟩

theorem sure_each {γ : Type} {f : γ → Program I Unit} : ∀ {items : List γ} {s : σ},
    (∀ x ∈ items, ∀ s, Sure A s (f x)) → Sure A s (each f items)
  | [], _, _ => sure_pure
  | x :: _, s, h =>
      sure_bind (h x List.mem_cons_self s) fun _ _ _ =>
        sure_each fun y hy => h y (List.mem_cons_of_mem x hy)

/-- A sequence whose first part ends well ends where its second part does. -/
theorem Sure.ends_bind {p : Program I α} {f : α → Program I β} {r : Except Fault β}
    (hp : Sure A s p) (h : (p >>= f).Ends A s r t) :
    ∃ a mid, p.Ends A s (.ok a) mid ∧ (f a).Ends A mid r t := by
  rcases Program.ends_bind.mp h with ⟨fault, hp', -⟩ | h
  · obtain ⟨a, ha⟩ := hp hp'
    exact nomatch ha
  · exact h

/-! ## What runs keep -/

/-- From every state with a property, a program ends in a state with it, and what it gives when
it ends well satisfies a condition. -/
def Keeps (A : Conduct I σ) (Inv : σ → Prop) (p : Program I α) (Q : α → Prop) : Prop :=
  ∀ ⦃s r t⦄, Inv s → p.Ends A s r t → Inv t ∧ ∀ a, r = .ok a → Q a

variable {Inv : σ → Prop} {Q : α → Prop} {R : β → Prop}

theorem keeps_pure {a : α} (h : Q a) : Keeps A Inv (pure a) Q := by
  rintro s r t hs ⟨rfl, rfl⟩
  exact ⟨hs, fun b hb => Except.ok.inj hb ▸ h⟩

theorem keeps_fail {fault : Fault} : Keeps A Inv (fail fault) Q := by
  rintro s r t hs ⟨rfl, rfl⟩
  exact ⟨hs, fun b hb => nomatch hb⟩

theorem keeps_lift {e : Except Fault α} (h : ∀ a, e = .ok a → Q a) :
    Keeps A Inv (liftM e : Program I α) Q := by
  rintro s r t hs ⟨rfl, rfl⟩
  exact ⟨hs, h⟩

theorem keeps_bind {p : Program I α} {f : α → Program I β} (hp : Keeps A Inv p Q)
    (hf : ∀ a, Q a → Keeps A Inv (f a) R) : Keeps A Inv (p >>= f) R := by
  intro s r t hs he
  rcases ends_bind.mp he with ⟨fault, hp', rfl⟩ | ⟨a, mid, hp', hf'⟩
  · exact ⟨(hp hs hp').1, fun b hb => nomatch hb⟩
  · obtain ⟨hmid, hQ⟩ := hp hs hp'
    exact hf a (hQ a rfl) hmid hf'

theorem keeps_during {step : String} {p : Program I α} (hp : Keeps A Inv p Q) :
    Keeps A Inv (p.during step) Q := by
  intro s r t hs he
  obtain ⟨r₀, hp', rfl⟩ := ends_during.mp he
  obtain ⟨ht, hQ⟩ := hp hs hp'
  refine ⟨ht, fun a ha => ?_⟩
  cases r₀ with
  | ok b => exact Except.ok.inj ha ▸ hQ b rfl
  | error fault => exact nomatch ha

theorem keeps_outcome {p : Program I α} (hp : Keeps A Inv p Q) :
    Keeps A Inv p.outcome (fun r => ∀ a, r = .ok a → Q a) := by
  intro s r t hs he
  obtain ⟨r₀, hp', rfl⟩ := ends_outcome.mp he
  obtain ⟨ht, hQ⟩ := hp hs hp'
  exact ⟨ht, fun r' hr' => Except.ok.inj hr' ▸ hQ⟩

theorem Keeps.mono {R : α → Prop} {p : Program I α} (hp : Keeps A Inv p Q)
    (weaker : ∀ a, Q a → R a) : Keeps A Inv p R := by
  intro s r t hs he
  obtain ⟨ht, hQ⟩ := hp hs he
  exact ⟨ht, fun a ha => weaker a (hQ a ha)⟩

/-- Where each part ends well in states with a property, and keeps it, all parts end well. -/
theorem sure_each_of_keeps {γ : Type} {f : γ → Program I Unit} : ∀ {items : List γ} {s : σ},
    Inv s → (∀ x ∈ items, ∀ s, Inv s → Sure A s (f x)) →
      (∀ x ∈ items, Keeps A Inv (f x) fun _ => True) → Sure A s (each f items)
  | [], _, _, _, _ => sure_pure
  | x :: _, s, hs, hsure, hkeeps =>
      sure_bind (hsure x List.mem_cons_self s hs) fun _ _ hx =>
        sure_each_of_keeps (hkeeps x List.mem_cons_self hs hx).1
          (fun y hy => hsure y (List.mem_cons_of_mem x hy))
          (fun y hy => hkeeps y (List.mem_cons_of_mem x hy))

/-- What every answer keeps, every program keeps. -/
theorem keeps_of_answers (h : ∀ s c answer t, Inv s → A s c answer t → Inv t)
    (p : Program I α) : Keeps A Inv p fun _ => True := by
  intro s r t hs he
  refine ⟨?_, fun _ _ => trivial⟩
  induction p generalizing s with
  | done result => exact he.2 ▸ hs
  | call c next ih =>
      obtain ⟨answer, mid, hc, hn⟩ := he
      exact ih answer (h s c answer mid hs hc) hn

/-! ## Runs on a machine -/

variable {m : Machine I σ}

/-- A run without a deadline ends as its machine answers. -/
theorem ends_run (p : Program I α) (s : σ) (elapsed : Nat) :
    p.Ends (.ofMachine m) s (p.run m none s elapsed).result (p.run m none s elapsed).state := by
  induction p generalizing s elapsed with
  | done result => exact ⟨rfl, rfl⟩
  | call c next ih => exact ⟨(m.effect s c).1, (m.effect s c).2, rfl, ih _ _ _⟩

/-- A machine leaves a program one way to end. -/
theorem Ends.unique {p : Program I α} {r r' : Except Fault α} {t' : σ}
    (h : p.Ends (.ofMachine m) s r t) (h' : p.Ends (.ofMachine m) s r' t') : r' = r ∧ t' = t := by
  induction p generalizing s with
  | done result => exact ⟨h'.1.trans h.1.symm, h'.2.trans h.2.symm⟩
  | call c next ih =>
      obtain ⟨answer, mid, hanswer, hrest⟩ := h
      obtain ⟨answer', mid', hanswer', hrest'⟩ := h'
      obtain ⟨rfl, rfl⟩ := Prod.mk.inj (hanswer.symm.trans hanswer')
      exact ih _ hrest hrest'

/-- A run that ends well within its deadline was never cut off. -/
theorem ends_of_run_ok {p : Program I α} {deadline : Option Nat} {s : σ} {elapsed : Nat} {a : α}
    (h : (p.run m deadline s elapsed).result = .ok a) :
    p.Ends (.ofMachine m) s (.ok a) (p.run m deadline s elapsed).state := by
  induction p generalizing s elapsed with
  | done result => exact ⟨h.symm, rfl⟩
  | call c next ih =>
      by_cases hcut : overruns deadline elapsed (m.wait s c) = true
      · simp [run, hcut, Run.cutOff] at h
      · simp only [run, hcut] at h ⊢
        exact ⟨(m.effect s c).1, (m.effect s c).2, rfl, ih _ h⟩

/-- When all calls can fail without effect, a program can end where it began. -/
theorem ends_still (p : Program I α) (s : σ) : ∃ r, p.Ends A.troubled s r s := by
  induction p with
  | done result => exact ⟨result, rfl, rfl⟩
  | call c next ih =>
      obtain ⟨r, h⟩ := ih (.error (.deadlineExceeded 0))
      exact ⟨r, _, s, Or.inr ⟨⟨_, rfl⟩, rfl⟩, h⟩

/-- The state of a run that was cut off is one in which the program can end when calls can fail:
the call that was cut off and all after it fail without effect. -/
theorem ends_of_run (p : Program I α) (deadline : Option Nat) (s : σ) (elapsed : Nat) :
    ∃ r, p.Ends (Conduct.ofMachine m).troubled s r (p.run m deadline s elapsed).state := by
  induction p generalizing s elapsed with
  | done result => exact ⟨result, rfl, rfl⟩
  | call c next ih =>
      by_cases hcut : overruns deadline elapsed (m.wait s c) = true
      · simp only [run, hcut]
        exact ends_still _ s
      · simp only [run, hcut]
        obtain ⟨r, h⟩ := ih (m.effect s c).1 (m.effect s c).2 (elapsed + m.wait s c)
        exact ⟨r, _, _, Or.inl rfl, h⟩

/-- A run of a sequence goes on where the run of its first part ended well. -/
theorem run_bind (p : Program I α) (f : α → Program I β) (deadline : Option Nat) (s : σ)
    (elapsed : Nat) :
    (p >>= f).run m deadline s elapsed =
      let first := p.run m deadline s elapsed
      match first.result with
      | .ok a =>
        let rest := (f a).run m deadline first.state first.elapsed
        { rest with begun := first.begun ++ rest.begun }
      | .error fault => ⟨.error fault, first.state, first.elapsed, first.begun⟩ := by
  change (p.bind f).run m deadline s elapsed = _
  induction p generalizing s elapsed with
  | done result => cases result <;> rfl
  | call c next ih =>
      by_cases hcut : overruns deadline elapsed (m.wait s c) = true
      · simp only [bind, run, hcut]
        rfl
      · simp only [bind, run, hcut, Bool.false_eq_true, if_false, ih]
        cases hresult : ((next (m.effect s c).1).run m deadline (m.effect s c).2
          (elapsed + m.wait s c)).result <;> simp

end Program

/-- A run none of whose calls was answered with a fault. -/
def Run.Smooth (m : Machine I σ) (r : Run I σ α) : Prop :=
  ∀ begun ∈ r.begun, (m.effect begun.1 begun.2).1.isOk = true

instance (m : Machine I σ) (r : Run I σ α) : Decidable (r.Smooth m) :=
  inferInstanceAs (Decidable (∀ begun ∈ r.begun, (m.effect begun.1 begun.2).1.isOk = true))

/-- A smooth run ends as its machine answers when it does not fail. -/
theorem Run.Smooth.ends {m : Machine I σ} {p : Program I α} {s : σ} {elapsed : Nat}
    (h : (p.run m none s elapsed).Smooth m) :
    p.Ends (Conduct.ofMachine m).serving s (p.run m none s elapsed).result
      (p.run m none s elapsed).state := by
  induction p generalizing s elapsed with
  | done result => exact ⟨rfl, rfl⟩
  | call c next ih =>
      have hc : (m.effect s c).1.isOk = true := h (s, c) List.mem_cons_self
      have ok : ∃ a, (m.effect s c).1 = .ok a := by
        cases heq : (m.effect s c).1 with
        | ok a => exact ⟨a, rfl⟩
        | error fault => rw [heq] at hc; exact nomatch hc
      exact ⟨_, _, ⟨rfl, ok⟩, ih _ fun begun hb => h begun (List.mem_cons_of_mem _ hb)⟩

/-- Where a program can end without a fault among its answers, its run is smooth. -/
theorem Run.smooth_of_ends {m : Machine I σ} {p : Program I α} {s t : σ} {elapsed : Nat}
    {r : Except Fault α} (h : p.Ends (Conduct.ofMachine m).serving s r t) :
    (p.run m none s elapsed).Smooth m := by
  induction p generalizing s elapsed with
  | done result => exact fun begun hb => nomatch hb
  | call c next ih =>
      obtain ⟨answer, mid, ⟨hc, a, ha⟩, hn⟩ := h
      obtain ⟨rfl, rfl⟩ : (m.effect s c).1 = answer ∧ (m.effect s c).2 = mid :=
        ⟨congrArg Prod.fst hc, congrArg Prod.snd hc⟩
      intro begun hb
      rcases List.mem_cons.mp hb with rfl | hrest
      · rw [ha]
        rfl
      · exact ih _ hn begun hrest

end Chartkeeper
