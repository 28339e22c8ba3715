import Chartkeeper.Proofs.Control.Grants
/-!
# Worlds in which nothing is made to fail

A call can fail because it is made to, or because there is nothing to answer it with: a kind that is
not served, a chart that cannot be rendered, a manifest that cannot be read. In a calm world only
the second is left, and every run keeps a world calm.

- `Port.Call.Ready`: the calls to which there is always an answer. In a calm world none of them
  fails (`serving_of_calm`).
- `Unfailing`: no call of a program is answered with a fault. There is one law for each way in which
  programs are put together, and one lemma for each step of a creation.
- `sure_make_of_calm`, `granted_of_make`: a release is made unless it cannot be put together, and all
  permissions of its record are applied even then.
- `recordCreated_of_calm`: it is recorded unless it cannot be described.
-/

namespace Chartkeeper

open World

variable {α : Type} {w w' : World}

namespace World

/-- No call is made to fail. -/
structure Calm (w : World) : Prop where
  resolver : w.resolverFailure = none
  inspector : w.inspectorFailure = none
  backend : w.backend.failures = []
  cluster : w.cluster.failure = none
  store : w.store.statusFailure = none

theorem calm_under (w : World) : (w.under .calm).Calm := ⟨rfl, rfl, rfl, rfl, rfl⟩

theorem calm_sample (template : String) (c : Composition) : (World.sample template c).Calm :=
  ⟨rfl, rfl, rfl, rfl, rfl⟩

theorem calm_effect (h : w.Calm) (call : Port.Call) : (w.effect call).2.Calm := by
  have of_setup {b : Backend} (hb : b.setup = w.backend.setup) :
      ({ w with backend := b } : World).Calm :=
    ⟨h.resolver, h.inspector, (congrArg Prod.snd hb).trans h.backend, h.cluster, h.store⟩
  cases call with
  | getRelease key => exact of_setup (w.backend.acts_get key).setup
  | install key url action => exact of_setup (w.backend.acts_install key url action).setup
  | upgrade key url action limit =>
      exact of_setup (w.backend.acts_upgrade key url action limit).setup
  | rollback key limit => exact of_setup (w.backend.acts_rollback key limit).setup
  | uninstall key ignoreMissing =>
      exact of_setup (w.backend.acts_uninstall key ignoreMissing).setup
  | apply o =>
      exact ⟨h.resolver, h.inspector, h.backend, (failure_effect w (.apply o)).trans h.cluster,
        h.store⟩
  | delete r ignoreMissing =>
      exact ⟨h.resolver, h.inspector, h.backend,
        (failure_effect w (.delete r ignoreMissing)).trans h.cluster, h.store⟩
  | updateStatus record =>
      refine ⟨h.resolver, h.inspector, h.backend, h.cluster, ?_⟩
      show (w.store.updateStatus record).2.statusFailure = none
      unfold Store.updateStatus
      dsimp only
      split
      · exact h.store
      · split <;> exact h.store
  | _ => exact ⟨h.resolver, h.inspector, h.backend, h.cluster, h.store⟩

theorem calm_ends {p : Task α} {r : Except Fault α} (h : w.Calm) (he : p.Ends answers w r w') :
    w'.Calm :=
  (keeps_of_effect (fun (s : World) call (hs : s.Calm) => calm_effect hs call) p h
    (troubled_of_answers he)).1

theorem calm_run (h : w.Calm) (p : Task α) : (w.run none p).state.Calm :=
  calm_ends h (Program.ends_run p w 0)

end World

/-! ## Calls that are always answered -/

/-- There is an answer to a call whatever the world holds. -/
def Port.Call.Ready : Port.Call → Prop
  | .resolve _ | .getRelease _ | .inspect _ | .apply _ | .updateRecord _ | .announce .. | .now =>
    True
  | _ => False

theorem World.Calm.answer (h : w.Calm) {call : Port.Call} (hcall : call.Ready) :
    ∃ a, (w.effect call).1 = .ok a := by
  cases call with
  | resolve record => exact ⟨w.package, by simp [effect, given, h.resolver]⟩
  | getRelease key => exact ⟨_, w.backend.get_of_calm h.backend key⟩
  | inspect inspection => exact ⟨w.report, by simp [effect, given, h.inspector]⟩
  | apply o =>
      have happly : (w.cluster.apply o).1 = .ok () := by
        unfold Cluster.apply
        rw [h.cluster]
      exact ⟨(), happly⟩
  | updateRecord record => exact ⟨_, rfl⟩
  | announce record event => exact ⟨_, rfl⟩
  | now => exact ⟨_, rfl⟩
  | _ => exact hcall.elim

/-- In a calm world, none of these calls fails. -/
theorem serving_of_calm {p : Task α} {r : Except Fault α} (hp : p.Only Port.Call.Ready)
    (h : w.Calm) (he : p.Ends answers w r w') : p.Ends serving w r w' := by
  induction p generalizing w with
  | done result => exact he
  | call c next ih =>
      obtain ⟨answer, mid, hc, hn⟩ := he
      obtain ⟨a, ha⟩ := h.answer hp.1
      have hanswer : answer = .ok a := (congrArg Prod.fst hc).symm.trans ha
      have hmid : mid.Calm := by
        rw [show mid = (w.effect c).2 from (congrArg Prod.snd hc).symm]
        exact calm_effect h c
      exact ⟨answer, mid, ⟨hc, a, hanswer⟩, ih answer (hp.2 answer) hmid hn⟩

theorem Store.updateStatus_of_calm {s : Store} {c d : Composition} (h : s.statusFailure = none)
    (hd : s.get? c.key = some d) : ∃ stored, (s.updateStatus c).1 = .ok stored := by
  unfold updateStatus
  dsimp only
  split
  · rename_i reason hreason
    exact nomatch h.symm.trans hreason
  · split
    · rename_i hnone
      exact nomatch hd.symm.trans hnone
    · exact ⟨_, rfl⟩

/-! ## Programs none of whose calls fails -/

namespace World

variable {β : Type} {p : Task α}

/-- No call of a program is answered with a fault. -/
def Unfailing (w : World) (p : Task α) : Prop :=
  ∀ ⦃r w'⦄, p.Ends answers w r w' → p.Ends serving w r w'

theorem Unfailing.smooth (h : Unfailing w p) : (w.run none p).Smooth machine :=
  Run.smooth_of_ends (h (Program.ends_run (m := machine) p w 0))

theorem Calm.after {r : Except Fault α} (h : w.Calm) (he : p.Ends serving w r w') : w'.Calm :=
  calm_ends h (answers_of_serving he)

theorem unfailing_of_ready (hp : p.Only Port.Call.Ready) (h : w.Calm) : Unfailing w p :=
  fun _ _ he => serving_of_calm hp h he

theorem unfailing_pure {a : α} : Unfailing w (pure a) :=
  fun _ _ he => he

theorem unfailing_lift {e : Except Fault α} : Unfailing w (liftM e : Task α) :=
  fun _ _ he => he

theorem unfailing_ask {call : Port.Call} (h : ∃ a, (w.effect call).1 = .ok a) :
    Unfailing w (Program.ask (I := Port) call) :=
  fun _ _ he => Program.ends_ask.mpr ⟨Program.ends_ask.mp he, sure_of_answer h he⟩

theorem unfailing_bind {f : α → Task β} (hp : Unfailing w p)
    (hf : ∀ a w₁, p.Ends serving w (.ok a) w₁ → Unfailing w₁ (f a)) : Unfailing w (p >>= f) := by
  intro r w' he
  rcases Program.ends_bind.mp he with ⟨fault, hfirst, rfl⟩ | ⟨a, w₁, hfirst, hrest⟩
  · exact Program.ends_bind.mpr (Or.inl ⟨fault, hp hfirst, rfl⟩)
  · exact Program.ends_bind.mpr (Or.inr ⟨a, w₁, hp hfirst, hf a w₁ (hp hfirst) hrest⟩)

/-- Calls that come later are made in a calm world as well. -/
theorem Calm.unfailing_bind {f : α → Task β} (h : w.Calm) (hp : Unfailing w p)
    (hf : ∀ a w₁, w₁.Calm → p.Ends troubled w (.ok a) w₁ → Unfailing w₁ (f a)) :
    Unfailing w (p >>= f) :=
  World.unfailing_bind hp fun a w₁ he => hf a w₁ (h.after he) (troubled_of_serving he)

theorem Calm.unfailing_ready_bind {f : α → Task β} (h : w.Calm) (hp : p.Only Port.Call.Ready)
    (hf : ∀ a w₁, w₁.Calm → p.Ends troubled w (.ok a) w₁ → Unfailing w₁ (f a)) :
    Unfailing w (p >>= f) :=
  h.unfailing_bind (unfailing_of_ready hp h) hf

theorem unfailing_during {step : String} (hp : Unfailing w p) : Unfailing w (p.during step) := by
  intro r w' he
  obtain ⟨r₀, hfirst, rfl⟩ := Program.ends_during.mp he
  exact Program.ends_during.mpr ⟨r₀, hp hfirst, rfl⟩

theorem unfailing_outcome (hp : Unfailing w p) : Unfailing w p.outcome := by
  intro r w' he
  obtain ⟨r₀, hfirst, rfl⟩ := Program.ends_outcome.mp he
  exact Program.ends_outcome.mpr ⟨r₀, hp hfirst, rfl⟩

/-- A program none of whose calls fails ends as it does when no call can fail. -/
theorem Unfailing.sure (h : Unfailing w p) (hsure : Program.Sure serving w p) :
    Program.Sure answers w p :=
  fun _ _ he => hsure (h he)

theorem sure_of_calm (hp : p.Only Port.Call.Ready) (h : w.Calm)
    (hsure : Program.Sure serving w p) : Program.Sure answers w p :=
  (unfailing_of_ready hp h).sure hsure

end World

namespace Controller

variable {k : Controller} {c d : Composition} {name : String} {resource : ApiResource}
  {package : Package} {rendered release : Release} {managed : List ManagedResource}
  {digest : String}

/-! ## Steps -/

theorem ready_installPermissions :
    (k.installPermissions c name resource package).Only Port.Call.Ready := by
  refine Program.only_bind (Program.only_during ?_) fun bundle => Program.only_during ?_
  · exact Program.only_bind Program.only_lift fun _ =>
      Program.only_bind (Program.only_ask trivial) fun _ => Program.only_pure
  · exact Program.only_each fun _ _ => Program.only_during (Program.only_ask trivial)

theorem ready_announce (c : Composition) (event : Event) :
    (Task.announce c event).Only Port.Call.Ready :=
  Program.only_bind (Program.only_outcome (Program.only_ask trivial)) fun _ => Program.only_pure

theorem ready_findPackage (c : Composition) : (findPackage c).Only Port.Call.Ready :=
  Program.only_during (Program.only_ask trivial)

theorem ready_findRelease (c : Composition) (name : String) :
    (findRelease c name).Only Port.Call.Ready :=
  Program.only_during (Program.only_ask trivial)

theorem ready_saveRecord (c : Composition) : (saveRecord c).Only Port.Call.Ready :=
  Program.only_during (Program.only_ask trivial)

theorem ready_saveIf (changed : Bool) (c : Composition) :
    (saveIf changed c).Only Port.Call.Ready := by
  cases changed with
  | false => exact Program.only_pure
  | true => exact ready_saveRecord c

theorem ready_writeStatus (c : Composition) (write : StatusWrite) :
    (writeStatus c write).Only Port.Call.Ready :=
  Program.only_bind (Program.only_ask trivial) fun _ => Program.only_pure

theorem unfailing_findResource (h : w.mapper.resource c.apiKind = .ok resource) :
    Unfailing w (findResource c) :=
  unfailing_during (unfailing_ask ⟨resource, h⟩)

theorem unfailing_saveStatus (h : w.Calm) (hd : w.Stores d) (hkey : c.key = d.key) :
    Unfailing w (saveStatus c) := by
  unfold Stores at hd
  rw [← hkey] at hd
  exact unfailing_during (unfailing_ask (Store.updateStatus_of_calm h.store hd))

theorem unfailing_describe (h : Describes w release managed digest) :
    Unfailing w (describe release) := by
  obtain ⟨-, outlines, hdecode, hmanaged⟩ := h
  refine unfailing_bind unfailing_lift ?_
  rintro found _ ⟨hfound, rfl⟩
  rw [hdecode] at hfound
  obtain rfl : found = (outlines, digest) := Except.ok.inj hfound
  exact unfailing_bind (unfailing_during (unfailing_ask ⟨managed, hmanaged⟩))
    fun _ _ _ => unfailing_pure

/-! ## The steps of a creation -/

theorem unfailing_installOrUpgrade {key : ReleaseKey} {action : Action} (h : w.Calm)
    (hrender : w.backend.render key package.url action = .ok rendered) :
    Unfailing w (k.installOrUpgrade key package action (w.backend.current? key)) := by
  cases hcurrent : w.backend.current? key with
  | none =>
      exact unfailing_during (unfailing_ask (Backend.install_of_calm h.backend hrender hcurrent))
  | some current =>
      exact unfailing_during (unfailing_ask (Backend.upgrade_of_calm h.backend hrender hcurrent))

theorem unfailing_make (h : w.Calm) (hwanted : k.wanted w c = .ok rendered) :
    Unfailing w (k.make c.releaseName c w.package) := by
  obtain ⟨resource, action, hresource, hcheck, haction, hrender⟩ := wanted_eq_ok.mp hwanted
  refine h.unfailing_bind (unfailing_findResource hresource) fun served w₁ h₁ hfind => ?_
  obtain rfl : served = resource := Except.ok.inj ((findResource_ok hfind).symm.trans hresource)
  refine h₁.unfailing_ready_bind (Program.only_during ready_installPermissions)
    fun _ w₂ h₂ hpermissions => ?_
  refine h₂.unfailing_bind unfailing_lift fun action' _ _ hlift => ?_
  obtain ⟨haction', rfl⟩ := hlift
  obtain rfl : action' = action := Except.ok.inj (haction'.trans haction)
  refine h₂.unfailing_ready_bind (ready_findRelease _ _) fun existing w₃ h₃ hlook => ?_
  have hexisting : existing = w₃.backend.current? (releaseKey c c.releaseName) := by
    rw [((leaves_findRelease _ _ _).same hlook).current?]
    exact findRelease_ok hlook
  have hw₃ : w₃.surroundings = w.surroundings := by
    rw [surroundings_ends hlook, surroundings_ends hpermissions, surroundings_ends hfind]
  rw [hexisting]
  exact unfailing_installOrUpgrade h₃ ((render_eq_of_surroundings hw₃ _ _ _).trans hrender)

theorem unfailing_recordCreated (h : w.Calm) (hd : w.Stores d) (hkey : c.key = d.key)
    (hdescribed : Describes w release managed digest) :
    Unfailing w (recordCreated c package release) := by
  refine h.unfailing_bind (unfailing_describe hdescribed) fun described w₁ h₁ hdescribe => ?_
  refine h₁.unfailing_ready_bind (ready_writeStatus _ _) fun written w₂ h₂ hwrite => ?_
  obtain ⟨written, changed⟩ := written
  obtain ⟨now, rfl, -⟩ := writeStatus_ok hwrite
  refine h₂.unfailing_ready_bind (ready_announce _ _) fun _ w₃ h₃ hannounce => ?_
  have hd₃ : w₃.Stores d :=
    ((leaves_describe _ _).same hdescribe |>.trans
      ((leaves_writeStatus _ _ _).same hwrite |>.trans
        ((Task.leaves_announce _ _ _).same hannounce))).stores hd
  refine h₃.unfailing_bind (unfailing_saveStatus h₃ hd₃ hkey) fun stored w₄ h₄ _ => ?_
  exact h₄.unfailing_ready_bind (ready_saveRecord _) fun _ _ _ _ => unfailing_pure

/-- A release that can be put together is made. -/
theorem sure_make_of_calm (h : w.Calm) (hfits : k.Fits w c release) :
    Program.Sure answers w (k.make c.releaseName c w.package) := by
  have hmakeable := hfits.makeable
  obtain ⟨rendered, hwanted, -⟩ := hfits
  exact (unfailing_make h hwanted).sure (sure_make rfl hmakeable)

/-- All permissions of a record are applied, whether its release can be made or not. -/
theorem granted_of_make {r : Except Fault Release} (h : w.Calm)
    (he : (k.make c.releaseName c w.package).Ends answers w r w') :
    w'.cluster.objects = Cluster.grant (k.granted w c) w.cluster.objects := by
  -- Without a bundle nothing is to be granted, and with one all of it is applied.
  have hgranting := granting_make (troubled_of_answers he)
  cases hresource : w.mapper.resource c.apiKind with
  | error fault => exact hgranting.all (Or.inr (granted_of_unserved hresource))
  | ok resource =>
      cases hcheck : (owner c resource w.package).check k.account c.releaseName with
      | error fault => exact hgranting.all (Or.inr (granted_of_unchecked hresource hcheck))
      | ok _ =>
          have hserve := (unfailing_findResource hresource).sure (sure_findResource w c)
          obtain ⟨served, w₁, hfind, h₁⟩ := hserve.ends_bind he
          obtain rfl : served = resource :=
            Except.ok.inj ((findResource_ok (troubled_of_answers hfind)).symm.trans hresource)
          have hinstall := sure_of_calm ready_installPermissions (calm_ends h hfind)
            (sure_installPermissions hcheck w₁)
          obtain ⟨_, w₂, hpermissions, h₂⟩ := (Program.sure_during hinstall).ends_bind h₁
          replace hfind := troubled_of_answers hfind
          have hw₁ := surroundings_ends hfind
          rw [show w.package = w₁.package from (congrArg Surroundings.package hw₁).symm]
            at hpermissions
          have hserved : w₁.mapper.resource c.apiKind = .ok served := by
            rw [show w₁.mapper = w.mapper from congrArg Surroundings.mapper hw₁]
            exact hresource
          have hafter := (leaves_deploy (x := .permissions) (by decide) k c.releaseName c w.package
            served).same (troubled_of_answers h₂)
          exact ((granting_installPermissions hserved
            (troubled_of_answers (Program.ends_during_ok.mp hpermissions))).between hw₁
              ((leaves_findResource _ _).same hfind) hafter).all (Or.inl rfl)

/-- A release that can be described is recorded. -/
theorem recordCreated_of_calm {r : Except Fault Unit} (h : w.Calm) (hc : w.Stores c)
    (he : (recordCreated c package release).Ends answers w r w') :
    r = .ok () ∨ ((∃ fault, r = .error fault) ∧
      (∀ managed digest, ¬Describes w release managed digest) ∧ Same .records w w') := by
  by_cases hdescribed : ∃ managed digest, Describes w release managed digest
  · obtain ⟨managed, digest, hdescribed⟩ := hdescribed
    left
    refine (recordCreated_stops (unfailing_recordCreated h hc rfl hdescribed he)).resolve_right ?_
    rintro ⟨hunread, -⟩
    obtain ⟨-, outlines, hdecode, -⟩ := hdescribed
    exact hunread ⟨_, hdecode⟩
  · right
    rcases Program.ends_bind.mp he with ⟨fault, hdescribe, rfl⟩ | ⟨found, w₁, hdescribe, -⟩
    · exact ⟨⟨fault, rfl⟩, fun managed digest hfound => hdescribed ⟨managed, digest, hfound⟩,
        (leaves_describe _ _).same (troubled_of_answers hdescribe)⟩
    · exact absurd ⟨_, _, describe_ok (troubled_of_answers hdescribe)⟩ hdescribed

end Controller

end Chartkeeper
