import Chartkeeper.Control.World
import Chartkeeper.Proofs.Control.Ends
import Chartkeeper.Proofs.Release.Backend
/-!
# What programs leave alone

A world holds releases, permissions and records, and each call changes at most one of these.
What a program leaves alone is read off its calls: `Only` follows the tree of a program once, and
a run changes nothing that none of its calls changes. What surrounds a controller is changed by
no call at all.

The three conducts of a world differ in the faults that may come: `answers` is how the world
answers, `troubled` lets any call fail on top of that, and `serving` lets none fail.
-/

namespace Chartkeeper

/-! ## The calls of a program -/

namespace Program

variable {I : Interface} {σ α β γ : Type} {P : I.Call → Prop}

/-- Every call that a program can make has a property, whatever the calls before it are answered
with. -/
def Only (P : I.Call → Prop) : Program I α → Prop
  | .done _ => True
  | .call c next => P c ∧ ∀ answer, (next answer).Only P

theorem only_pure {a : α} : (pure a : Program I α).Only P := trivial

theorem only_fail {fault : Fault} : (fail fault : Program I α).Only P := trivial

theorem only_lift {e : Except Fault α} : (liftM e : Program I α).Only P := trivial

theorem only_ask {c : I.Call} (h : P c) : (ask c : Program I (I.Answer c)).Only P :=
  ⟨h, fun _ => trivial⟩

theorem only_bind {p : Program I α} {f : α → Program I β} (hp : p.Only P)
    (hf : ∀ a, (f a).Only P) : (p >>= f).Only P := by
  change (p.bind f).Only P
  induction p with
  | done result =>
      cases result with
      | ok a => exact hf a
      | error fault => trivial
  | call c next ih => exact ⟨hp.1, fun answer => ih answer (hp.2 answer)⟩

theorem only_during {step : String} {p : Program I α} (hp : p.Only P) :
    (p.during step).Only P := by
  induction p with
  | done result => trivial
  | call c next ih => exact ⟨hp.1, fun answer => ih answer (hp.2 answer)⟩

theorem only_outcome {p : Program I α} (hp : p.Only P) : p.outcome.Only P := by
  induction p with
  | done result => trivial
  | call c next ih => exact ⟨hp.1, fun answer => ih answer (hp.2 answer)⟩

theorem only_each {f : γ → Program I Unit} : ∀ {items : List γ},
    (∀ x ∈ items, (f x).Only P) → (each f items).Only P
  | [], _ => trivial
  | x :: _, h =>
      only_bind (h x List.mem_cons_self) fun _ =>
        only_each fun y hy => h y (List.mem_cons_of_mem x hy)

theorem Only.mono {P' : I.Call → Prop} {p : Program I α} (hp : p.Only P)
    (weaker : ∀ c, P c → P' c) : p.Only P' := by
  induction p with
  | done result => trivial
  | call c next ih => exact ⟨weaker c hp.1, fun answer => ih answer (hp.2 answer)⟩

/-- What every call of a program keeps related, every run of it keeps related. -/
theorem Only.ends {A : Conduct I σ} {R : σ → σ → Prop} {p : Program I α} (hp : p.Only P)
    (refl : ∀ s, R s s) (trans : ∀ s t u, R s t → R t u → R s u)
    (step : ∀ s c answer t, P c → A s c answer t → R s t) {s t : σ} {r : Except Fault α}
    (he : p.Ends A s r t) : R s t := by
  induction p generalizing s with
  | done result => exact he.2 ▸ refl s
  | call c next ih =>
      obtain ⟨answer, mid, hc, hn⟩ := he
      exact trans s mid t (step s c answer mid hp.1 hc) (ih answer (hp.2 answer) hn)

variable {m : Machine I σ}

/-- A run begins no other calls than its program makes. -/
theorem Only.begun {p : Program I α} (hp : p.Only P) (deadline : Option Nat) (s : σ)
    (elapsed : Nat) :
    ∀ call ∈ (p.run m deadline s elapsed).calls, P call := by
  induction p generalizing s elapsed with
  | done result => exact fun call hcall => nomatch hcall
  | call c next ih =>
      intro call hcall
      unfold Run.calls at hcall
      by_cases hcut : overruns deadline elapsed (m.wait s c) = true
      · simp only [run, hcut] at hcall
        rw [List.mem_singleton.mp hcall]
        exact hp.1
      · simp only [run, hcut, Bool.false_eq_true, if_false, List.map_cons] at hcall
        rcases List.mem_cons.mp hcall with rfl | hrest
        · exact hp.1
        · exact ih _ (hp.2 _) _ _ call hrest

/-- A program none of whose calls wait is not cut off, and takes no time. -/
theorem Only.ends_run {p : Program I α} (hp : p.Only fun c => ∀ s, m.wait s c = 0)
    (deadline : Option Nat) (s : σ) (elapsed : Nat) :
    p.Ends (.ofMachine m) s (p.run m deadline s elapsed).result
        (p.run m deadline s elapsed).state ∧
      (p.run m deadline s elapsed).elapsed = elapsed := by
  induction p generalizing s with
  | done result => exact ⟨⟨rfl, rfl⟩, rfl⟩
  | call c next ih =>
      have hprompt : overruns deadline elapsed 0 = false := by
        unfold overruns
        cases deadline <;> rfl
      simp only [run, hp.1 s, hprompt, Bool.false_eq_true, if_false, Nat.add_zero]
      obtain ⟨hends, helapsed⟩ := ih (m.effect s c).1 (hp.2 _) (m.effect s c).2
      exact ⟨⟨_, _, rfl, hends⟩, helapsed⟩

end Program

/-! ## Conducts of a world -/

/-- What calls change in a world. -/
inductive Holding where
  | releases
  | permissions
  | records
  deriving DecidableEq

/-- What a call can change. -/
def Port.Call.changes : Port.Call → Option Holding
  | .install .. | .upgrade .. | .rollback .. | .uninstall .. => some .releases
  | .apply _ | .delete .. => some .permissions
  | .updateRecord _ | .updateStatus _ => some .records
  | _ => none

/-- A call that changes nothing and does not go to the package manager. -/
def Port.Call.Inert : Port.Call → Prop
  | .resolve _ | .serve _ | .manage _ | .inspect _ | .announce .. | .now => True
  | _ => False

/-- An inert call, or a write of a record. -/
def Port.Call.Clerical : Port.Call → Prop
  | .updateRecord _ | .updateStatus _ => True
  | call => call.Inert

theorem Port.Call.Inert.clerical {call : Port.Call} (h : call.Inert) : call.Clerical := by
  cases call with
  | updateRecord | updateStatus => trivial
  | _ => exact h

theorem Port.Call.Inert.changes {call : Port.Call} (h : call.Inert) : call.changes = none := by
  cases call with
  | resolve | serve | manage | inspect | announce | now => rfl
  | _ => exact h.elim

/-- What is not a record is changed by no clerical call. -/
theorem Port.Call.Clerical.changes {call : Port.Call} {x : Holding} (h : call.Clerical)
    (hx : x ≠ .records) : call.changes ≠ some x := by
  cases call with
  | updateRecord | updateStatus => exact fun hrecords => hx (Option.some.inj hrecords).symm
  | resolve | serve | manage | inspect | announce | now => exact nofun
  | _ => exact h.elim

theorem Program.Only.clerical {α : Type} {p : Task α} (hp : p.Only Port.Call.Inert) :
    p.Only Port.Call.Clerical :=
  hp.mono fun _ => Port.Call.Inert.clerical

/-- What a controller works with and no call changes. -/
structure Surroundings where
  package : Package
  report : List Requirement
  mapper : Mapper
  charts : Assoc String Chart

namespace World

variable {α : Type} {w w' w'' : World}

/-- Calls are answered as the world answers them. -/
def answers : Conduct Port World := .ofMachine machine

/-- Any call may fail on top of that. -/
def troubled : Conduct Port World := answers.troubled

/-- No call fails. -/
def serving : Conduct Port World := answers.serving

theorem troubled_of_answers {p : Task α} {r : Except Fault α} (h : p.Ends answers w r w') :
    p.Ends troubled w r w' :=
  h.mono fun _ _ _ _ => Or.inl

theorem answers_of_serving {p : Task α} {r : Except Fault α} (h : p.Ends serving w r w') :
    p.Ends answers w r w' :=
  h.mono fun _ _ _ _ => And.left

theorem troubled_of_serving {p : Task α} {r : Except Fault α} (h : p.Ends serving w r w') :
    p.Ends troubled w r w' :=
  troubled_of_answers (answers_of_serving h)

/-- Trouble gives no answers of its own. -/
theorem ends_ask_ok {c : Port.Call} {a : Port.Answer c} :
    (Program.ask (I := Port) c).Ends troubled w (.ok a) w' ↔ w.effect c = (.ok a, w') := by
  refine Iff.trans Program.ends_ask ⟨?_, Or.inl⟩
  rintro (h | ⟨⟨_, h⟩, -⟩)
  · exact h
  · exact nomatch h

/-- What every call leaves related, every answer leaves related, also when calls can fail. -/
theorem related_of_effect {P : Port.Call → Prop} {R : World → World → Prop} (refl : ∀ s, R s s)
    (h : ∀ s call, P call → R s (s.effect call).2) :
    ∀ s call answer t, P call → troubled s call answer t → R s t := by
  rintro s call answer t hcall (heffect | ⟨-, rfl⟩)
  · rw [show t = (s.effect call).2 from (congrArg Prod.snd heffect).symm]
    exact h s call hcall
  · exact refl t

/-- What every call keeps, every task keeps. -/
theorem keeps_of_effect {Inv : World → Prop} (h : ∀ s call, Inv s → Inv (s.effect call).2)
    (p : Task α) : Program.Keeps troubled Inv p fun _ => True := by
  refine Program.keeps_of_answers (fun s call answer t hs hanswer => ?_) p
  exact related_of_effect (P := fun _ => True) (R := fun s t => Inv s → Inv t) (fun _ => id)
    (fun s call _ => h s call) s call answer t trivial hanswer hs

theorem sure_of_answer {call : Port.Call} (h : ∃ a, (w.effect call).1 = .ok a) :
    Program.Sure answers w (Program.ask (I := Port) call) := by
  intro r t he
  obtain ⟨a, ha⟩ := h
  exact ⟨a, (congrArg Prod.fst (Program.ends_ask.mp he)).symm.trans ha⟩

/-! ## What surrounds a controller -/

/-- What no call changes. -/
def surroundings (w : World) : Surroundings :=
  ⟨w.package, w.report, w.mapper, w.backend.charts⟩

theorem surroundings_effect (w : World) (c : Port.Call) :
    (w.effect c).2.surroundings = w.surroundings := by
  have of_setup : ∀ b : Backend, b.setup = w.backend.setup →
      ({ w with backend := b } : World).surroundings = w.surroundings :=
    fun _ h => congrArg (Surroundings.mk w.package w.report w.mapper) (congrArg Prod.fst h)
  cases c with
  | getRelease key => exact of_setup _ (w.backend.acts_get key).setup
  | install key url action => exact of_setup _ (w.backend.acts_install key url action).setup
  | upgrade key url action limit =>
      exact of_setup _ (w.backend.acts_upgrade key url action limit).setup
  | rollback key limit => exact of_setup _ (w.backend.acts_rollback key limit).setup
  | uninstall key ignoreMissing =>
      exact of_setup _ (w.backend.acts_uninstall key ignoreMissing).setup
  | _ => rfl

/-- No run changes what surrounds a controller. -/
theorem surroundings_ends {p : Task α} {r : Except Fault α} (h : p.Ends troubled w r w') :
    w'.surroundings = w.surroundings :=
  (keeps_of_effect (fun s call hs => (surroundings_effect s call).trans hs) p rfl h).1

theorem surroundings_run (p : Task α) (w : World) :
    (w.run none p).state.surroundings = w.surroundings :=
  surroundings_ends (troubled_of_answers (Program.ends_run p w 0))

theorem package_run (p : Task α) (w : World) : (w.run none p).state.package = w.package :=
  congrArg Surroundings.package (surroundings_run p w)

/-! ## What a world holds -/

/-- Two worlds hold the same of one kind. -/
def Same : Holding → World → World → Prop
  | .releases, w, w' => w'.backend.histories = w.backend.histories
  | .permissions, w, w' => w'.cluster.objects = w.cluster.objects
  | .records, w, w' => w'.store.records = w.store.records

theorem same_refl (x : Holding) (w : World) : Same x w w := by
  cases x <;> exact rfl

theorem Same.trans {x : Holding} (h : Same x w w') (h' : Same x w' w'') : Same x w w'' := by
  cases x <;> exact Eq.trans h' h

/-- A call changes nothing but what it can change. -/
theorem same_effect {x : Holding} {c : Port.Call} (h : c.changes ≠ some x) (w : World) :
    Same x w (w.effect c).2 := by
  cases x with
  | releases =>
      cases c with
      | getRelease key => exact w.backend.histories_get key
      | install | upgrade | rollback | uninstall => exact absurd rfl h
      | _ => exact rfl
  | permissions =>
      cases c with
      | apply | delete => exact absurd rfl h
      | _ => exact rfl
  | records =>
      cases c with
      | updateRecord | updateStatus => exact absurd rfl h
      | _ => exact rfl

/-- A call that changes no record does not even count as a write. -/
theorem store_effect {c : Port.Call} (h : c.changes ≠ some .records) (w : World) :
    (w.effect c).2.store = w.store := by
  cases c with
  | updateRecord | updateStatus => exact absurd rfl h
  | _ => rfl

end World

/-- A task leaves what a world holds of one kind as it is. -/
def Leaves {α : Type} (x : Holding) (p : Task α) : Prop :=
  p.Only fun c => Port.Call.changes c ≠ some x

theorem leaves_of_inert {α : Type} {p : Task α} (hp : p.Only Port.Call.Inert) (x : Holding) :
    Leaves x p := by
  refine hp.mono fun call hcall => ?_
  rw [hcall.changes]
  exact nofun

theorem leaves_of_clerical {α : Type} {x : Holding} {p : Task α} (hx : x ≠ .records)
    (hp : p.Only Port.Call.Clerical) : Leaves x p :=
  hp.mono fun _ hcall => hcall.changes hx

/-- A run changes nothing that its task leaves alone, whichever calls fail. -/
theorem Leaves.same {α : Type} {x : Holding} {p : Task α} {w w' : World} {r : Except Fault α}
    (hp : Leaves x p) (he : p.Ends World.troubled w r w') : World.Same x w w' :=
  Program.Only.ends hp (World.same_refl x) (fun _ _ _ => World.Same.trans)
    (World.related_of_effect (World.same_refl x) fun s _ hcall => World.same_effect hcall s) he

/-- What comes first and leaves something alone does not matter to it. -/
theorem Leaves.same_bind {α β : Type} {x : Holding} {p : Task α} {f : α → Task β} {w w' : World}
    {r : Except Fault β} (hp : Leaves x p)
    (hf : ∀ a mid, (f a).Ends World.troubled mid r w' → World.Same x mid w')
    (h : (p >>= f).Ends World.troubled w r w') : World.Same x w w' := by
  rcases Program.ends_bind.mp h with ⟨fault, hstop, -⟩ | ⟨a, mid, hfirst, hrest⟩
  · exact hp.same hstop
  · exact (hp.same hfirst).trans (hf a mid hrest)

/-- A task that leaves the records alone leaves the whole store as it is. -/
theorem Leaves.store {α : Type} {p : Task α} {w w' : World} {r : Except Fault α}
    (hp : Leaves .records p) (he : p.Ends World.troubled w r w') : w'.store = w.store :=
  Program.Only.ends (R := fun s t : World => t.store = s.store) hp (fun _ => rfl)
    (fun _ _ _ hst htu => htu.trans hst)
    (World.related_of_effect (fun _ => rfl) fun s _ hcall => World.store_effect hcall s) he

end Chartkeeper
