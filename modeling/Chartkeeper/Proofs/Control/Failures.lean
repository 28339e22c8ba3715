import Chartkeeper.Proofs.Control.Calm
import Chartkeeper.Proofs.Control.Persistence
import Chartkeeper.Proofs.Control.Releases
/-!
# What a failed operation leaves of a record

An operation that fails leaves what the record says as it was. It may have marked the record, but
status writes that record a success come last: nothing can fail after one of them as long as the
store takes status writes at all, and if it does not, the write itself fails.

The one exception is wanted. When observing cannot make or apply the permissions of a record, or
cannot upgrade its release, it notes the fault in the condition that says whether the record is
ready, and tells of it. All else in the status stays, and if the note cannot be stored, that is the
fault the operation ends with.
-/

namespace Chartkeeper

open World Chartkeeper.Composition

variable {α : Type} {w w' : World}

/-! ## Faults of steps -/

theorem Program.context_of_during {I : Interface} {σ : Type} {A : Conduct I σ} {s t : σ}
    {step : String} {p : Program I α} {fault : Fault}
    (h : (p.during step).Ends A s (.error fault) t) :
    ∃ cause, p.Ends A s (.error cause) t ∧ fault = .context step cause := by
  obtain ⟨r₀, hp, hr⟩ := Program.ends_during.mp h
  cases r₀ with
  | ok a => exact nomatch hr
  | error cause => exact ⟨cause, hp, Except.error.inj hr⟩

/-- The steps of observing whose faults are noted in the record. -/
def notedSteps : List String :=
  ["generating RBAC using chart-inspector", "applying rbac", "upgrading helm chart"]

/-- The step that failed is one whose faults are noted. -/
def Fault.Noted : Fault → Prop
  | .context step _ => step ∈ notedSteps
  | _ => False

instance : DecidablePred Fault.Noted
  | .context step _ => inferInstanceAs (Decidable (step ∈ notedSteps))
  | .backend .. | .persistence .. | .resolver _ | .inspector _ | .clusterApi .. | .mapping ..
  | .permission _ | .digest _ | .postRender _ | .releaseNotFound _ | .releaseStillExists _
  | .invalidRecord _ | .invalidConfig _ | .deadlineExceeded _ => isFalse id

/-! ## Conditions that say something else -/

namespace Status

variable {s : Status}

/-- All conditions but those that say whether a record is ready. -/
def others (s : Status) : List Condition :=
  s.conditions.filter (·.type ≠ Condition.readyType)

theorem others_setCondition (c : Condition) (h : c.type = Condition.readyType) :
    (s.setCondition c).1.others = s.others := by
  unfold others
  rw [← h]
  exact Condition.filter_write c s.conditions

/-- A condition that is written with the message of a fault is found with it. -/
theorem condition?_setUnavailable (message : String) (now : Instant) : ∃ since,
    (s.setCondition (.unavailable message now)).1.condition? Condition.readyType =
      some (.unavailable message since) :=
  Condition.find?_write (.unavailable message now) s.conditions

end Status

/-! ## What a world goes on with -/

/-- The store of a world takes status writes. -/
def World.Writable (w : World) : Prop :=
  w.store.statusFailure = none

theorem Store.statusFailure_updateStatus (s : Store) (c : Composition) :
    (s.updateStatus c).2.statusFailure = s.statusFailure := by
  unfold updateStatus
  dsimp only
  split
  · rfl
  · split <;> rfl

theorem Store.writable_of_updateStatus {s : Store} {c stored : Composition}
    (h : (s.updateStatus c).1 = .ok stored) : s.statusFailure = none := by
  unfold updateStatus at h
  dsimp only at h
  split at h
  · exact nomatch h
  · assumption

theorem World.statusFailure_effect (w : World) (call : Port.Call) :
    (w.effect call).2.store.statusFailure = w.store.statusFailure := by
  cases call with
  | updateStatus record => exact Store.statusFailure_updateStatus w.store record
  | _ => rfl

/-- What a run told is added to what was told before. -/
theorem World.events_ends {p : Task α} {r : Except Fault α} (h : p.Ends answers w r w') :
    w.events <+: w'.events := by
  have kept (s : World) (call : Port.Call) (hs : w.events <+: s.events) :
      w.events <+: (s.effect call).2.events := by
    cases call with
    | announce record event => exact hs.trans (List.prefix_append _ _)
    | _ => exact hs
  exact (keeps_of_effect kept p List.prefix_rfl (troubled_of_answers h)).1

theorem World.statusFailure_ends {p : Task α} {r : Except Fault α} (h : p.Ends answers w r w') :
    w'.store.statusFailure = w.store.statusFailure :=
  (keeps_of_effect (fun s call hs => (statusFailure_effect s call).trans hs) p rfl
    (troubled_of_answers h)).1

namespace Controller

variable {k : Controller} {c d : Composition} {name operation : String} {package : Package}
  {fault : Fault}

/-! ## Steps that cannot fail -/

theorem sure_now_answers (w : World) : Program.Sure answers w Task.now :=
  sure_of_answer ⟨_, rfl⟩

theorem sure_writeStatus_answers (w : World) (c : Composition) (write : StatusWrite) :
    Program.Sure answers w (writeStatus c write) :=
  Program.sure_bind (sure_now_answers w) fun _ _ _ => Program.sure_pure

theorem sure_saveRecord_answers (w : World) (c : Composition) :
    Program.Sure answers w (saveRecord c) :=
  fun _ _ h => saveRecord_answers h

theorem sure_saveIf_answers (w : World) (changed : Bool) (c : Composition) :
    Program.Sure answers w (saveIf changed c) := by
  cases changed with
  | false => exact Program.sure_pure
  | true => exact sure_saveRecord_answers w c

theorem sure_told_answers (w : World) {event : Event} {a : α} :
    Program.Sure answers w (do Task.announce c event; return a : Task α) :=
  Program.sure_bind (Task.sure_announce w c event) fun _ _ _ => Program.sure_pure

theorem sure_saveStatus_of_writable (hw : w.Writable) (hd : w.store.get? c.key = some d) :
    Program.Sure answers w (saveStatus c) :=
  Program.sure_during (sure_of_answer (Store.updateStatus_of_calm hw hd))

/-- After a status write that succeeded, a pause can take effect. -/
theorem sure_settle_of_writable (hw : w.Writable) (hd : w.Stores c) (write : StatusWrite) :
    Program.Sure answers w (settle c write) := by
  unfold settle
  cases c.wantsPause with
  | false =>
      exact Program.sure_bind Program.sure_pure fun record w₁ _ =>
        Program.sure_bind (sure_saveRecord_answers w₁ record) fun _ _ _ => Program.sure_pure
  | true =>
      refine Program.sure_bind (p := enterPause c write) ?_ fun record w₁ _ =>
        Program.sure_bind (sure_saveRecord_answers w₁ record) fun _ _ _ => Program.sure_pure
      refine Program.sure_bind (sure_now_answers w) fun noted w₁ hnow => ?_
      refine Program.sure_bind (sure_writeStatus_answers w₁ _ _) fun written w₂ hwrite => ?_
      obtain ⟨written, changed⟩ := written
      cases changed with
      | false => exact sure_told_answers w₂
      | true =>
          have hstore : w₂.store = w.store := by
            rw [(leaves_writeStatus .records _ _).store (troubled_of_answers hwrite),
              (Task.leaves_now .records).store (troubled_of_answers hnow)]
          obtain ⟨now, rfl, -⟩ := writeStatus_ok (troubled_of_answers hwrite)
          have hw₂ : w₂.Writable := by
            unfold World.Writable
            rw [hstore]
            exact hw
          have hd₂ : w₂.store.get? c.key = some c := by
            rw [hstore]
            exact hd
          exact Program.sure_bind (sure_saveStatus_of_writable hw₂ hd₂) fun _ w₃ _ =>
            sure_told_answers w₃

/-! ## Failures before a success is recorded -/

theorem writable_of_updateStatus {stored : Composition}
    (h : (Task.updateStatus c).Ends answers w (.ok stored) w') : w.Writable :=
  Store.writable_of_updateStatus (congrArg Prod.fst (ends_ask_ok.mp (troubled_of_answers h)))

theorem writable_of_saveStatus {stored : Composition}
    (h : (saveStatus c).Ends answers w (.ok stored) w') : w.Writable :=
  writable_of_updateStatus (Program.ends_during_ok.mp h)

/-- What comes first and leaves something alone does not matter to it. -/
theorem same_of_bind {β : Type} {x : Holding} {p : Task α} {f : α → Task β} {r : Except Fault β}
    (hp : Leaves x p) (hf : ∀ a mid, p.Ends answers w (.ok a) mid → (f a).Ends answers mid r w' →
      Same x mid w') (h : (p >>= f).Ends answers w r w') : Same x w w' := by
  rcases Program.ends_bind.mp h with ⟨_, hstop, -⟩ | ⟨a, mid, hfirst, hrest⟩
  · exact hp.same (troubled_of_answers hstop)
  · exact (hp.same (troubled_of_answers hfirst)).trans (hf a mid hfirst hrest)

theorem recordCreated_error_answers {release : Release}
    (h : (recordCreated c package release).Ends answers w (.error fault) w') :
    Same .records w w' := by
  refine same_of_bind (leaves_describe _ release) (fun described w₁ _ h₁ => ?_) h
  refine same_of_bind (leaves_writeStatus _ c _) (fun written w₂ _ h₂ => ?_) h₁
  refine same_of_bind (Task.leaves_announce _ _ _) (fun _ w₃ _ h₃ => ?_) h₂
  rcases Program.ends_bind.mp h₃ with ⟨_, hstatus, -⟩ | ⟨stored, w₄, -, h₄⟩
  · exact saveStatus_error (troubled_of_answers hstatus)
  · obtain ⟨_, _, -, hdone, -⟩ := (sure_saveRecord_answers w₄ _).ends_bind h₄
    exact nomatch hdone

theorem recordUpdated_error_answers {release : Release} (hc : w.Stores c)
    (h : (recordUpdated c package release).Ends answers w (.error fault) w') :
    Same .records w w' := by
  refine same_of_bind (leaves_describe _ release) (fun described w₁ hdescribe h₁ => ?_) h
  refine same_of_bind (Task.leaves_announce _ _ _) (fun _ w₂ hannounce h₂ => ?_) h₁
  refine same_of_bind (leaves_writeStatus _ _ _) (fun written w₃ hwrite h₃ => ?_) h₂
  rcases Program.ends_bind.mp h₃ with ⟨_, hstatus, -⟩ | ⟨stored, w₄, hstatus, h₄⟩
  · exact saveStatus_error (troubled_of_answers hstatus)
  · -- The store took the status, so it takes the pause as well.
    have hc₃ : w₃.Stores c :=
      (((leaves_describe _ _).same (troubled_of_answers hdescribe)).trans
        (((Task.leaves_announce _ _ _).same (troubled_of_answers hannounce)).trans
          ((leaves_writeStatus _ _ _).same (troubled_of_answers hwrite)))).stores hc
    obtain ⟨now, hwritten, -⟩ := writeStatus_ok (troubled_of_answers hwrite)
    have hkey : written.1.key = c.key := by
      rw [hwritten]
      rfl
    obtain ⟨-, hstored⟩ := saveStatus_ok hc₃ hkey (troubled_of_answers hstatus)
    have hw₄ : w₄.Writable := (statusFailure_ends hstatus).trans (writable_of_saveStatus hstatus)
    obtain ⟨_, hdone⟩ := sure_settle_of_writable hw₄ hstored _ h₄
    exact nomatch hdone

theorem update_error_answers (hc : w.Stores c) (h : (update c).Ends answers w (.error fault) w') :
    Same .records w w' := by
  by_cases hpause : c.pause = .paused
  · rw [update_of_paused hpause] at h
    exact leaves_told.same (troubled_of_answers h)
  · rw [update_of_not_paused hpause] at h
    refine same_of_bind (leaves_findPackage _ c) (fun package w₁ hpackage h₁ => ?_) h
    refine same_of_bind (leaves_findRelease _ c _) (fun found w₂ hfind h₂ => ?_) h₁
    have hc₂ : w₂.Stores c :=
      (((leaves_findPackage _ c).same (troubled_of_answers hpackage)).trans
        ((leaves_findRelease _ c _).same (troubled_of_answers hfind))).stores hc
    cases found with
    | none => exact Leaves.same Program.only_fail (troubled_of_answers h₂)
    | some release => exact recordUpdated_error_answers hc₂ h₂

theorem dismantle_error_answers
    (h : (k.dismantle c package).Ends answers w (.error fault) w') : Same .records w w' := by
  refine same_of_bind (leaves_findResource _ c) (fun resource w₁ _ h₁ => ?_) h
  refine same_of_bind (Program.only_during (Owner.leaves_generate _ _ _ _))
    (fun bundle w₂ _ h₂ => ?_) h₁
  refine same_of_bind (Program.only_during (Bundle.leaves_uninstall (by decide) bundle))
    (fun _ w₃ _ h₃ => ?_) h₂
  refine same_of_bind (Task.leaves_announce _ _ _) (fun _ w₄ _ h₄ => ?_) h₃
  obtain ⟨_, _, -, hdone, -⟩ := (sure_saveRecord_answers w₄ _).ends_bind h₄
  exact nomatch hdone

theorem delete_error_answers (h : (k.delete c).Ends answers w (.error fault) w') :
    Same .records w w' := by
  by_cases hpause : c.pause = .paused
  · rw [delete_of_paused hpause] at h
    exact leaves_told.same (troubled_of_answers h)
  · unfold delete at h
    rw [if_neg hpause] at h
    refine same_of_bind (leaves_findPackage _ c) (fun package w₁ _ h₁ => ?_) h
    refine same_of_bind (leaves_findRelease _ c _) (fun found w₂ _ h₂ => ?_) h₁
    cases found with
    | none => exact leaves_told.same (troubled_of_answers h₂)
    | some release =>
        refine same_of_bind (Program.only_during (Task.leaves_uninstall (by decide) _ _))
          (fun _ w₃ _ h₃ => ?_) h₂
        refine same_of_bind (leaves_findRelease _ c _) (fun left w₄ _ h₄ => ?_) h₃
        cases left with
        | some _ => exact Leaves.same Program.only_fail (troubled_of_answers h₄)
        | none => exact dismantle_error_answers h₄

/-- A record that differs from another in its marks only. -/
structure Unspoiled (c d : Composition) : Prop where
  alike : Alike c d
  status : d.status = c.status

theorem unspoiled_of_create (hc : w.Stores c)
    (h : (k.create c).Ends answers w (.error fault) w') : Holds (Unspoiled c) w' := by
  by_cases hpause : c.pause = .paused
  · rw [create_of_paused hpause] at h
    exact ⟨c, (leaves_told.same (troubled_of_answers h)).stores hc, Alike.refl c, rfl⟩
  · rw [create_of_not_paused hpause] at h
    obtain ⟨record, w₁, hsave, h₁⟩ := (sure_saveIf_answers w _ _).ends_bind h
    obtain ⟨-, e, he, halike, hstatus, -⟩ :=
      saveNamed_ok hc (Alike.refl c) rfl (troubled_of_answers hsave)
    have hsame : Same .records w₁ w' := by
      refine same_of_bind (leaves_findPackage _ record) (fun package w₂ _ h₂ => ?_) h₁
      refine same_of_bind (leaves_make (by decide) (by decide) k _ record package)
        (fun release w₃ _ h₃ => ?_) h₂
      exact recordCreated_error_answers h₃
    exact ⟨e, hsame.stores he, halike, hstatus⟩

/-! ## Faults of observing -/

/-- The warning about a fault. -/
def notReady (fault : Fault) : Event :=
  ⟨.warning, "CompositionNotReady", "Observe", fault.message⟩

/-- A fault was noted: the stored record says that it is not ready, and why, and that was told
last. -/
structure Reported (c : Composition) (w w' : World) (fault : Fault) : Prop where
  writable : w.Writable
  record : ∃ d now, w'.Stores d ∧ Alike c d ∧
    d.status = (c.status.setCondition (.unavailable fault.message now)).1
  events : ∃ told, w'.events = w.events ++ told ++ [notReady fault]

/-- Wherever observing a record fails, the fault was noted if it is one of those that are, and
otherwise nothing but marks was written. -/
def Careful (c : Composition) (w : World) (p : Task α) : Prop :=
  ∀ ⦃fault w'⦄, p.Ends answers w (.error fault) w' →
    (fault.Noted → Reported c w w' fault) ∧ (¬fault.Noted → Holds (Unspoiled c) w')

section

variable {β : Type} {step : String}

theorem careful_of_sure {p : Task α} (hp : Program.Sure answers w p) : Careful c w p := by
  intro fault w' h
  obtain ⟨_, hdone⟩ := hp h
  exact nomatch hdone

theorem careful_bind {p : Task α} {f : α → Task β} (hp : Careful c w p)
    (hf : ∀ a mid, p.Ends answers w (.ok a) mid → Careful c mid (f a)) :
    Careful c w (p >>= f) := by
  intro fault w' h
  rcases Program.ends_bind.mp h with ⟨_, hstop, hr⟩ | ⟨a, mid, hfirst, hrest⟩
  · obtain rfl := Except.error.inj hr
    exact hp hstop
  · obtain ⟨hnoted, hkept⟩ := hf a mid hfirst hrest
    refine ⟨fun hfault => ?_, hkept⟩
    obtain ⟨hwritable, hrecord, told, hevents⟩ := hnoted hfault
    obtain ⟨before, hbefore⟩ := events_ends hfirst
    refine ⟨(statusFailure_ends hfirst).symm.trans hwritable, hrecord, before ++ told, ?_⟩
    rw [hevents, ← hbefore, List.append_assoc w.events]

/-- A step whose faults are not noted, and that writes nothing. -/
theorem careful_during {p : Task α} (hp : Leaves .records p) (hstep : step ∉ notedSteps)
    (hw : Holds (Unspoiled c) w) : Careful c w (p.during step) := by
  intro fault w' h
  obtain ⟨cause, hcause, rfl⟩ := Program.context_of_during h
  obtain ⟨d, hd, hunspoiled⟩ := hw
  exact ⟨fun hnoted => absurd hnoted hstep,
    fun _ => ⟨d, (hp.same (troubled_of_answers hcause)).stores hd, hunspoiled⟩⟩

theorem announce_answers {event : Event} {r : Except Fault Unit}
    (h : (Task.announce c event).Ends answers w r w') : w'.events = w.events ++ [event] := by
  obtain ⟨_, w₁, houtcome, -, rfl⟩ := Program.sure_outcome.ends_bind h
  obtain ⟨_, hask, -⟩ := Program.ends_outcome.mp houtcome
  obtain rfl : (w.effect (.announce c event)).2 = w' := congrArg Prod.snd (Program.ends_ask.mp hask)
  rfl

/-- A fault is noted in the status and told of, or the fault of noting it takes its place. -/
theorem careful_failNoted (hfault : fault.Noted) (hd : w.Stores d) (hc : Unspoiled c d) :
    Careful c w (failNoted d "Observe" fault : Task α) := by
  intro final w' h
  obtain ⟨now, w₁, hnow, h₁⟩ := (sure_now_answers w).ends_bind h
  obtain ⟨_, w₂, hannounce, h₂⟩ := (Task.sure_announce w₁ _ _).ends_bind h₁
  obtain ⟨stored, w₃, houtcome, h₃⟩ := Program.sure_outcome.ends_bind h₂
  obtain ⟨r₀, hask, hr⟩ := Program.ends_outcome.mp houtcome
  obtain rfl := Except.ok.inj hr
  have hsame : Same .records w w₂ :=
    ((Task.leaves_now _).same (troubled_of_answers hnow)).trans
      ((Task.leaves_announce _ _ _).same (troubled_of_answers hannounce))
  have hd₂ := hsame.stores hd
  cases stored with
  | ok stored =>
      obtain ⟨hfinal, rfl⟩ := h₃
      obtain rfl := Except.error.inj hfinal
      obtain ⟨rfl, hstored⟩ := Task.updateStatus_ok hd₂ (by rfl) (troubled_of_answers hask)
      have hwritable : w.Writable := by
        have hw₂ := writable_of_updateStatus hask
        rwa [World.Writable, statusFailure_ends hannounce, statusFailure_ends hnow] at hw₂
      have hclock : w₁.events = w.events := by
        obtain rfl : (w.effect .now).2 = w₁ := congrArg Prod.snd (Program.ends_ask.mp hnow)
        rfl
      have hwrite : w'.events = w₂.events := by
        obtain rfl : (w₂.effect (.updateStatus _)).2 = w' :=
          congrArg Prod.snd (Program.ends_ask.mp hask)
        rfl
      refine ⟨fun _ => ⟨hwritable, ?_, [], ?_⟩, fun hnot => absurd hfault hnot⟩
      · refine ⟨_, now, hstored, hc.alike.trans (alike_status _ _), ?_⟩
        rw [← hc.status]
      · rw [hwrite, announce_answers hannounce, hclock, List.append_nil]
        rfl
  | error storing =>
      obtain ⟨hfinal, rfl⟩ := h₃
      obtain rfl := Except.error.inj hfinal
      have hstep : "updating status after failure" ∉ notedSteps := by decide
      refine ⟨fun hnoted => absurd hnoted hstep, fun _ => ⟨d, ?_, hc⟩⟩
      exact (Task.updateStatus_error (troubled_of_answers hask)).stores hd₂

/-- A step whose faults are noted. -/
theorem careful_noted {p : Task α} (hp : Leaves .records p)
    (hnoted : ∀ fault mid, p.Ends answers w (.error fault) mid → fault.Noted)
    (hd : w.Stores d) (hc : Unspoiled c d) : Careful c w (noted d "Observe" p) := by
  refine careful_bind (careful_of_sure Program.sure_outcome) fun outcome mid houtcome => ?_
  obtain ⟨r₀, hends, hr⟩ := Program.ends_outcome.mp houtcome
  obtain rfl := Except.ok.inj hr
  cases outcome with
  | ok a => exact careful_of_sure Program.sure_pure
  | error fault =>
      exact careful_failNoted (hnoted fault mid hends)
        ((hp.same (troubled_of_answers hends)).stores hd) hc

end

/-! ## Observing -/

theorem noted_of_installPermissions {resource : ApiResource}
    (h : (k.installPermissions c name resource package).Ends answers w (.error fault) w') :
    fault.Noted := by
  rcases Program.ends_bind.mp h with ⟨_, hgenerate, hr⟩ | ⟨bundle, w₁, -, hinstall⟩
  · obtain ⟨cause, -, rfl⟩ := Program.context_of_during hgenerate
    obtain rfl := Except.error.inj hr
    show _ ∈ notedSteps
    decide
  · obtain ⟨cause, -, rfl⟩ := Program.context_of_during hinstall
    show _ ∈ notedSteps
    decide

theorem noted_of_upgrade {p : Task α}
    (h : (p.during "upgrading helm chart").Ends answers w (.error fault) w') : fault.Noted := by
  obtain ⟨cause, -, rfl⟩ := Program.context_of_during h
  show _ ∈ notedSteps
  decide

/-- Putting together what a release is rendered from is not among the noted steps. -/
theorem not_noted_of_action {resource : ApiResource}
    (h : k.action d package resource = .error fault) : ¬fault.Noted := by
  unfold action at h
  rcases Fault.bind_eq_error.mp h with hvalues | ⟨values, -, hrest⟩
  · obtain ⟨cause, -, rfl⟩ := Fault.during_eq_error.mp hvalues
    show _ ∉ notedSteps
    decide
  · generalize values.inject d resource k.platform = injected at hrest
    obtain ⟨values, outcome⟩ := injected
    rcases Fault.bind_eq_error.mp hrest with hinject | ⟨_, -, hdone⟩
    · obtain ⟨cause, -, rfl⟩ := Fault.during_eq_error.mp hinject
      show _ ∉ notedSteps
      decide
    · exact nomatch hdone

theorem careful_action {resource : ApiResource} (hd : w.Stores d) (hc : Unspoiled c d) :
    Careful c w (liftM (k.action d package resource) : Task Action) := by
  rintro fault w' ⟨haction, rfl⟩
  have hnot := not_noted_of_action haction.symm
  exact ⟨fun hnoted => absurd hnoted hnot, fun _ => ⟨d, hd, hc⟩⟩

theorem careful_observeUpgraded {before after : Release} (hd : w.Stores d) (hc : Unspoiled c d) :
    Careful c w (observeUpgraded d package before after) := by
  by_cases hout : Outdated d before after
  · rw [observeUpgraded_of_outdated hout]
    exact careful_of_sure Program.sure_pure
  · rw [observeUpgraded_of_not_outdated hout]
    refine careful_bind (careful_of_sure (sure_writeStatus_answers w d _)) ?_
    intro written w₁ hwrite
    obtain ⟨written, changed⟩ := written
    have hd₁ := ((leaves_writeStatus .records d _).same (troubled_of_answers hwrite)).stores hd
    cases changed with
    | false => exact careful_of_sure Program.sure_pure
    | true =>
        refine careful_bind ?_ fun _ w₂ _ => careful_of_sure Program.sure_pure
        intro fault w' h
        have hstep : "updating status" ∉ notedSteps := by decide
        have hsame := saveStatus_error (troubled_of_answers h)
        obtain ⟨cause, -, rfl⟩ := Program.context_of_during h
        exact ⟨fun hnoted => absurd hnoted hstep, fun _ => ⟨d, hsame.stores hd₁, hc⟩⟩

theorem careful_renew {before : Release} (hd : w.Stores d) (hc : Unspoiled c d) :
    Careful c w (k.renew d name package before) := by
  refine careful_bind (careful_during (Task.leaves_serve _ _) (by decide) ⟨d, hd, hc⟩) ?_
  intro resource w₁ hresource
  have hd₁ := ((leaves_findResource .records d).same (troubled_of_answers hresource)).stores hd
  have hleaves := leaves_installPermissions (x := .records) (by decide) k d name resource package
  refine careful_bind
    (careful_noted hleaves (fun _ _ => noted_of_installPermissions) hd₁ hc) ?_
  intro _ w₂ hpermissions
  have hd₂ := (hleaves.same (noted_ok (troubled_of_answers hpermissions))).stores hd₁
  refine careful_bind (careful_action hd₂ hc) ?_
  rintro action w₃ ⟨-, rfl⟩
  have hupgrade : Leaves .records ((Task.upgrade (releaseKey d name) package.url action
      k.historyLimit).during "upgrading helm chart") :=
    Program.only_during (Task.leaves_upgrade (by decide) _ _ _ _)
  refine careful_bind (careful_noted hupgrade (fun _ _ => noted_of_upgrade) hd₂ hc) ?_
  intro after w₄ hupgraded
  exact careful_observeUpgraded
    ((hupgrade.same (noted_ok (troubled_of_answers hupgraded))).stores hd₂) hc

theorem careful_observeFound {found : Option Release} (hd : w.Stores d) (hc : Unspoiled c d) :
    Careful c w (k.observeFound d name package found) := by
  cases found with
  | none => exact careful_of_sure Program.sure_pure
  | some release =>
      have hrecover : Careful c w (k.recover (releaseKey d name) release) := by
        unfold recover
        split
        · exact careful_during (Task.leaves_rollback (by decide) _ _) (by decide) ⟨d, hd, hc⟩
        · exact careful_of_sure Program.sure_pure
      refine careful_bind hrecover fun before w₁ hrecovered => ?_
      have hleaves := leaves_recover (x := .records) (by decide) k (releaseKey d name) release
      exact careful_renew ((hleaves.same (troubled_of_answers hrecovered)).stores hd) hc

theorem careful_mark (hc : w.Stores c) (hpause : c.pause ≠ .paused) : Careful c w (mark c) := by
  refine careful_bind (careful_of_sure (sure_saveIf_answers w _ _)) fun resumed w₁ hsave => ?_
  obtain ⟨hresumed, hstored⟩ := saveResumed_ok hc hpause (troubled_of_answers hsave)
  have hunspoiled : Unspoiled c resumed := by
    rw [hresumed]
    exact ⟨alike_resumed hpause, status_setReleaseName c c.releaseName⟩
  refine careful_bind
    (careful_during (Task.leaves_resolve _ _) (by decide) ⟨resumed, hstored, hunspoiled⟩) ?_
  intro package w₂ _
  refine careful_bind (careful_of_sure (sure_saveIf_answers w₂ _ _)) fun marked w₃ _ => ?_
  exact careful_of_sure Program.sure_pure

theorem careful_observe (hc : w.Stores c) : Careful c w (k.observe c) := by
  by_cases hpause : c.pause = .paused
  · rw [observe_of_paused hpause]
    exact careful_of_sure (sure_told_answers w)
  · rw [observe_of_mark hpause]
    refine careful_bind (careful_mark hc hpause) ?_
    rintro ⟨record, package⟩ w₁ hmark
    obtain ⟨hrecord, -, hd⟩ := mark_ok hc hpause (troubled_of_answers hmark)
    have hunspoiled : Unspoiled c record := by
      rw [hrecord]
      exact ⟨alike_marked hpause _, status_marked c _⟩
    refine careful_bind
      (careful_during (Task.leaves_getRelease _ _) (by decide) ⟨record, hd, hunspoiled⟩) ?_
    intro found w₂ hfind
    have hsame : Same .records w₁ w₂ := (leaves_findRelease _ _ _).same (troubled_of_answers hfind)
    exact careful_observeFound (hsame.stores hd) hunspoiled

/-! ## Failed operations -/

/-- Noted faults aside, a failed operation wrote nothing but marks. -/
theorem careful_perform (hc : w.Stores c) (deed : Deed)
    (h : (k.perform c deed).Ends answers w (.error fault) w') :
    (deed = .observe ∧ fault.Noted → Reported c w w' fault) ∧
      (¬(deed = .observe ∧ fault.Noted) → Holds (Unspoiled c) w') := by
  have hkept : Same .records w w' → Holds (Unspoiled c) w' := fun hsame =>
    ⟨c, hsame.stores hc, Alike.refl c, rfl⟩
  cases deed with
  | observe =>
      have hcareful : Careful c w (k.perform c .observe) :=
        careful_bind (careful_observe hc) fun _ _ _ => careful_of_sure Program.sure_pure
      obtain ⟨hnoted, hunspoiled⟩ := hcareful h
      exact ⟨fun hfault => hnoted hfault.2, fun hnot => hunspoiled fun hfault => hnot ⟨rfl, hfault⟩⟩
  | create => exact ⟨fun hfault => (nomatch hfault.1), fun _ => unspoiled_of_create hc h⟩
  | update => exact ⟨fun hfault => (nomatch hfault.1), fun _ => hkept (update_error_answers hc h)⟩
  | delete => exact ⟨fun hfault => (nomatch hfault.1), fun _ => hkept (delete_error_answers h)⟩

/-- **A failed operation leaves the stored status intact.** The spec, the digests, the chart, the
managed resources and all conditions but readiness are as they were. Readiness changes when
observing fails to make or apply the permissions or to upgrade the release, and the store takes
status writes: then it says that the record is unavailable, with the fault as its message, and that
is told last. -/
theorem status_of_failure {deed : Deed} (hstored : w.store.get? c.key = some c)
    (h : (k.perform c deed).Ends answers w (.error fault) w') :
    ∃ d, w'.store.get? c.key = some d ∧ d.spec = c.spec ∧
      d.status.digest = c.status.digest ∧ d.status.previousDigest = c.status.previousDigest ∧
      d.status.chartUrl = c.status.chartUrl ∧ d.status.chartVersion = c.status.chartVersion ∧
      d.status.managed = c.status.managed ∧ d.status.others = c.status.others ∧
      (deed = .observe ∧ fault.Noted →
        w.Writable ∧
        (∃ since, d.status.condition? Condition.readyType =
          some (.unavailable fault.message since)) ∧
        ∃ told, w'.events = w.events ++ told ++ [notReady fault]) ∧
      (¬(deed = .observe ∧ fault.Noted) → d.status.conditions = c.status.conditions) := by
  obtain ⟨hreported, hunspoiled⟩ := careful_perform hstored deed h
  by_cases hfault : deed = .observe ∧ fault.Noted
  · obtain ⟨hwritable, ⟨d, now, hd, halike, hstatus⟩, hevents⟩ := hreported hfault
    have hd' : w'.store.get? c.key = some d := by
      rw [← halike.key]
      exact hd
    refine ⟨d, hd', halike.spec, ?_⟩
    rw [hstatus]
    refine ⟨rfl, rfl, rfl, rfl, rfl, Status.others_setCondition _ rfl, fun _ => ?_,
      fun hnot => absurd hfault hnot⟩
    exact ⟨hwritable, Status.condition?_setUnavailable _ now, hevents⟩
  · obtain ⟨d, hd, halike, hstatus⟩ := hunspoiled hfault
    have hd' : w'.store.get? c.key = some d := by
      rw [← halike.key]
      exact hd
    refine ⟨d, hd', halike.spec, ?_⟩
    rw [hstatus]
    exact ⟨rfl, rfl, rfl, rfl, rfl, rfl, fun h => absurd h hfault, fun _ => rfl⟩

/-- A record that was ready, with another condition that is not the controller's. -/
def readySample : Composition :=
  { Composition.sample with
    status :=
      { Status.empty with
        digest := "5f2a"
        conditions := [⟨"Synced", .yes, "InSync", "", default⟩, .available "up-to-date" default] } }

/-- A world in which that record has a release, and nobody can tell which permissions it takes. -/
def unread : World :=
  { released readySample with inspectorFailure := some "inspector is down" }

/-- The fault of observing there. -/
def unreadFault : Fault :=
  .context "generating RBAC using chart-inspector" (.inspector "inspector is down")

theorem status_of_failure_unread :
    unread.store.get? readySample.key = some readySample ∧
      (unread.run none (Controller.sample.perform readySample .observe)).result =
        .error unreadFault ∧
      ∃ d since,
        (unread.run none (Controller.sample.perform readySample .observe)).state.store.get?
          readySample.key = some d ∧
        d.status.digest = "5f2a" ∧
        d.status.others = [⟨"Synced", .yes, "InSync", "", default⟩] ∧
        d.status.condition? Condition.readyType = some (.unavailable unreadFault.message since) ∧
        (unread.run none (Controller.sample.perform readySample .observe)).state.events.getLast? =
          some (notReady unreadFault) := by
  have hstored : unread.store.get? readySample.key = some readySample :=
    World.sample_stores "" readySample
  have hresult : (unread.run none (Controller.sample.perform readySample .observe)).result =
      .error unreadFault := by decide +kernel
  have hnoted : unreadFault.Noted := by decide
  -- The world becomes a variable before the theorem is applied, so that no run is evaluated then.
  generalize unread = w at hstored hresult ⊢
  have hends := Program.ends_run (m := machine) (Controller.sample.perform readySample .observe) w 0
  rw [show (Program.run machine none _ w 0).result = _ from hresult] at hends
  obtain ⟨d, hd, -, hdigest, -, -, -, -, hothers, hreported, -⟩ := status_of_failure hstored hends
  obtain ⟨-, ⟨since, hready⟩, told, hevents⟩ := hreported ⟨rfl, hnoted⟩
  refine ⟨hstored, hresult, d, since, hd, hdigest, hothers.trans (by decide), hready, ?_⟩
  exact (congrArg List.getLast? hevents).trans List.getLast?_concat

end Controller

end Chartkeeper
