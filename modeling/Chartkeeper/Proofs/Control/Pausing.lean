import Chartkeeper.Proofs.Control.Failures
/-!
# The pause protocol over whole courses

A user asks for a pause, the next update notes when it took effect, and from then on every pass
leaves the record alone, until the user edits an annotation of the protocol. Here that is followed
over any course of events: passes in which calls fail or that a deadline cuts off, edits by the
user, the mark of a deletion, and outages that come and go.

- `reconcile_of_pause_in_effect`: a pass over a paused record tells of it, and that is all it does.
- `paused_of_updated`: a pass that ends as an update lets a pause take effect that was asked for.
- `Course.holds`: what every event keeps, a course of them keeps. Annotations in order are kept by
  every event (`steady_regular`), a pause by every event that is no edit of it (`steady_inPause`).
- `pause_of_course`: the protocol, at any point of a course.
-/

namespace Chartkeeper

open World Chartkeeper.Composition

/-! ## Courses of events -/

/-- Whether a call tells of an event. -/
def Port.Call.tells : Port.Call → Bool
  | .announce .. => true
  | _ => false

/-- Any call may fail on top of how the world answers, but what is told comes through. -/
def World.faulty : Conduct Port World :=
  fun s call answer t => answers s call answer t ∨
    call.tells = false ∧ (∃ fault, answer = .error fault) ∧ t = s

/-- A record after a user has set one of its annotations, or removed it. -/
def Composition.annotate (c : Composition) (field : String) : Option String → Composition
  | some value => c.withAnnotation field value
  | none =>
      { c with metadata := { c.metadata with
          annotations := c.metadata.annotations.erase field } }

/-- Puts a record in place of the stored one. -/
def World.put (w : World) (c : Composition) : World :=
  { w with store := w.store.insert c }

/-- What can happen while a record is stored. -/
inductive Turn where
  /-- A pass ended. -/
  | pass (result : Except Fault Outcome)
  /-- The user edited an annotation. -/
  | annotate (field : String) (value : Option String)
  /-- The record was marked for deletion. -/
  | doom (time : Instant)
  /-- Other calls are made to fail now. -/
  | outages (o : Outages)

/-- The turns in which the user edits an annotation of the pause protocol. -/
def Turn.Pausing : Turn → Prop
  | .annotate field _ => field = pauseAnnotation ∨ field = pauseTimeAnnotation
  | _ => False

namespace Controller

variable {k : Controller} {w w' w'' : World} {c d : Composition} {key : String} {turn : Turn}
  {turns : List Turn} {result : Except Fault Outcome}

/-- A pass over a record: each of its calls may fail, or a deadline may cut it off. -/
inductive Pass (k : Controller) (c : Composition) (w : World) : Except Fault Outcome → World → Prop
  | ended {result : Except Fault Outcome} {w' : World}
      (run : (k.reconcile c).Ends faulty w result w') : Pass k c w result w'
  | timed (deadline : Option Nat) :
      Pass k c w (w.run deadline (k.reconcile c)).result (w.run deadline (k.reconcile c)).state

/-- The events around the record that is stored under a key. A pass is over that record. -/
inductive Takes (k : Controller) (key : String) (w : World) : Turn → World → Prop
  | pass {c : Composition} {result : Except Fault Outcome} {w' : World}
      (stored : w.store.get? key = some c) (pass : Pass k c w result w') :
      Takes k key w (.pass result) w'
  | annotate {c : Composition} (field : String) (value : Option String)
      (stored : w.store.get? key = some c) :
      Takes k key w (.annotate field value) (w.put (c.annotate field value))
  | doom {c : Composition} (time : Instant) (stored : w.store.get? key = some c) :
      Takes k key w (.doom time) (w.put (c.withDeletion (some time)))
  | outages (o : Outages) : Takes k key w (.outages o) (w.under o)

/-- A course of events, one after the other. -/
inductive Course (k : Controller) (key : String) : World → List Turn → World → Prop
  | nil (w : World) : Course k key w [] w
  | cons {w w' w'' : World} {turn : Turn} {turns : List Turn} (first : Takes k key w turn w')
      (rest : Course k key w' turns w'') : Course k key w (turn :: turns) w''

/-! ## Passes -/

theorem troubled_of_faulty {α : Type} {p : Task α} {r : Except Fault α}
    (h : p.Ends faulty w r w') : p.Ends troubled w r w' :=
  h.mono fun _ _ _ _ hcall => hcall.imp_right And.right

/-- Wherever a pass stops, calls that fail could have stopped it there. -/
theorem Pass.ends (h : Pass k c w result w') : ∃ r, (k.reconcile c).Ends troubled w r w' := by
  cases h with
  | ended run => exact ⟨_, troubled_of_faulty run⟩
  | timed deadline => exact Program.ends_of_run _ deadline w 0

theorem Pass.ends_ok {outcome : Outcome} (h : Pass k c w result w') (hok : result = .ok outcome) :
    (k.reconcile c).Ends troubled w (.ok outcome) w' := by
  cases h with
  | ended run => exact troubled_of_faulty (hok ▸ run)
  | timed deadline => exact troubled_of_answers (Program.ends_of_run_ok hok)

/-! ## Passes over a paused record -/

/-- A pass over a paused record does nothing but tell of it. -/
theorem reconcile_of_pause_in_effect (hpause : c.pause = .paused) :
    ∃ record event outcome, k.reconcile c = (do
      Task.announce record event
      return outcome) := by
  cases hdeleting : c.isDeleting with
  | true =>
      rw [reconcile_of_deleting hdeleting, delete_of_paused hpause, Program.bind_assoc]
      exact ⟨_, _, _, rfl⟩
  | false =>
      rw [reconcile_of_not_deleting hdeleting, observe_of_paused hpause, Program.bind_assoc]
      exact ⟨_, _, _, rfl⟩

/-- What is told comes through, also in a pass in which other calls can fail. -/
theorem announce_faulty {event : Event} {r : Except Fault Unit}
    (h : (Task.announce c event).Ends faulty w r w') :
    (Task.announce c event).Ends answers w r w' := by
  obtain ⟨outcome, w₁, houtcome, hdone⟩ := Program.sure_outcome.ends_bind h
  refine Program.ends_bind.mpr (Or.inr ⟨outcome, w₁, ?_, hdone⟩)
  obtain ⟨r₀, hask, hr⟩ := Program.ends_outcome.mp houtcome
  refine Program.ends_outcome.mpr ⟨r₀, ?_, hr⟩
  rcases Program.ends_ask.mp hask with hanswer | ⟨htells, -⟩
  · exact Program.ends_ask.mpr hanswer
  · exact nomatch htells

/-- **A pass over a paused record** ends well, changes nothing and tells of one event. -/
theorem Pass.of_paused (h : Pass k c w result w') (hpause : c.pause = .paused) :
    (∃ outcome, result = .ok outcome) ∧ (∀ x, Same x w w') ∧
      ∃ event, w'.events = w.events ++ [event] := by
  obtain ⟨record, event, outcome, hreconcile⟩ := reconcile_of_pause_in_effect (k := k) hpause
  have hends : (k.reconcile c).Ends answers w result w' := by
    cases h with
    | ended run =>
        rw [hreconcile] at run ⊢
        obtain ⟨_, w₁, hannounce, hdone⟩ := (Task.sure_announce w record event).ends_bind run
        exact Program.ends_bind.mpr (Or.inr ⟨_, w₁, announce_faulty hannounce, hdone⟩)
    | timed deadline =>
        have hprompt : (k.reconcile c).Only fun call => ∀ s, machine.wait s call = 0 := by
          rw [hreconcile]
          exact Program.only_bind (Program.only_bind (Program.only_outcome
            (Program.only_ask fun _ => rfl)) fun _ => Program.only_pure) fun _ => Program.only_pure
        exact (hprompt.ends_run deadline w 0).1
  rw [hreconcile] at hends
  have hsame (x : Holding) : Same x w w' := leaves_told.same (troubled_of_answers hends)
  obtain ⟨_, w₁, hannounce, hr, rfl⟩ := (Task.sure_announce w record event).ends_bind hends
  exact ⟨⟨outcome, hr⟩, hsame, event, announce_answers hannounce⟩

/-! ## Passes that let a pause take effect -/

/-- The records of a key whose pause is in effect, and recorded. -/
structure PauseRecorded (key : String) (c : Composition) : Prop where
  key : c.key = key
  pause : c.pause = .paused
  ready : ∃ since, c.status.condition? Condition.readyType =
    some (.paused StatusWrite.pausedMessage since)

/-- Updating a record for which a pause was asked lets it take effect and records it. -/
theorem paused_of_update (hd : w.Stores d) (halike : Alike c d) (hpause : c.pause = .requested)
    (h : (update c).Ends troubled w (.ok ()) w') : Holds (PauseRecorded c.key) w' := by
  have hnot : c.pause ≠ .paused := by
    rw [hpause]
    exact nofun
  obtain ⟨r, w₁, -, -, hstore, -, h₁⟩ := update_cut hnot h
  have hd₁ : w₁.Stores d := by
    unfold Stores
    rw [hstore]
    exact hd
  have hwants : d.wantsPause = true := by
    rw [← Bool.not_eq_false, ← pause_eq_active_iff, halike.pause, hpause]
    exact nofun
  obtain ⟨managed, digest, now, -, hstored⟩ := recordUpdated_ok hd₁ halike.key.symm h₁
  rcases hstored with ⟨hnone, -⟩ | ⟨-, noted, later, hstored⟩
  · rw [hwants] at hnone
    exact nomatch hnone
  · refine ⟨_, hstored, halike.key, pause_setPauseTime hwants noted, ?_⟩
    exact Status.condition?_apply_asPaused _ _ now rfl later

/-- **A pass that ends as an update** leaves a record for which a pause was asked paused. -/
theorem paused_of_updated (hc : w.Stores c) (hpause : c.pause = .requested)
    (h : (k.reconcile c).Ends troubled w (.ok .updated) w') : Holds (PauseRecorded c.key) w' := by
  have hnot : c.pause ≠ .paused := by
    rw [hpause]
    exact nofun
  cases hdeleting : c.isDeleting with
  | true =>
      rw [reconcile_of_deleting hdeleting] at h
      obtain ⟨_, _, -, houtcome, -⟩ := Program.ends_bind_ok.mp h
      exact nomatch houtcome
  | false =>
      rw [reconcile_of_not_deleting hdeleting] at h
      obtain ⟨observation, w₁, hobserve, h₁⟩ := Program.ends_bind_ok.mp h
      obtain ⟨-, hfound⟩ := (observe_ok hc hobserve).resolve_left fun hleft => hnot hleft.1
      cases hfound with
      | absent none releases stored =>
          obtain ⟨_, _, -, houtcome, -⟩ := Program.ends_bind_ok.mp h₁
          exact nomatch houtcome
      | stale found before after current kept fits upgraded outdated stored =>
          obtain ⟨_, _, hupdate, -, rfl⟩ := Program.ends_bind_ok.mp h₁
          exact paused_of_update stored (alike_marked hnot _) hpause hupdate
      | current found before after current kept fits upgraded same now stored =>
          exact nomatch h₁.1

/-! ## Annotations in order -/

/-- The records of a key whose annotations are in order, so that no annotation is there twice. -/
structure Regular (key : String) (c : Composition) : Prop where
  key : c.key = key
  annotations : c.metadata.annotations.Ascending

theorem lasting_regular (key : String) : Lasting key (Regular key) where
  key h := h.key
  status _ h := ⟨h.key, h.annotations⟩
  merged _ h := ⟨h.key, h.annotations⟩
  named {c} h := by
    refine ⟨(alike_setReleaseName c).key.trans h.key, ?_⟩
    unfold setReleaseName
    rw [annotations_setLabel]
    exact h.annotations
  resumed h := ⟨h.key, Table.ascending_erase h.annotations⟩
  defined {c} definition h := by
    refine ⟨(alike_setDefinition c definition).key.trans h.key, ?_⟩
    unfold setDefinition
    rw [annotations_setLabels]
    exact h.annotations

/-- A pass keeps what lasts, wherever it stops. A pause that takes effect has to keep it, too. -/
theorem keeps_reconcile {P : Composition → Prop} (hP : Lasting key P)
    (hpaused : ∀ {c} t, c.wantsPause = true → P c → P (c.setPauseTime t)) (hc : P c) :
    Program.Keeps troubled (Holds P) (k.reconcile c) fun _ => True := by
  cases hdeleting : c.isDeleting with
  | true =>
      rw [reconcile_of_deleting hdeleting]
      exact Program.keeps_bind (keeps_delete hP hc) fun _ _ => Program.keeps_pure trivial
  | false =>
      rw [reconcile_of_not_deleting hdeleting]
      refine Program.keeps_bind (keeps_observe hP hc) fun observation _ => ?_
      obtain ⟨found, upToDate⟩ := observation
      cases found with
      | false =>
          exact Program.keeps_bind (keeps_create hP hc) fun _ _ => Program.keeps_pure trivial
      | true =>
          cases upToDate with
          | false =>
              exact Program.keeps_bind (keeps_update hP.enduring hpaused (hP.key hc)) fun _ _ =>
                Program.keeps_pure trivial
          | true => exact Program.keeps_pure trivial

/-! ## What lasts along a course -/

/-- A property of the records of one key that every event of some sort keeps. -/
structure Steady (k : Controller) (key : String) (allowed : Turn → Prop)
    (P : Composition → Prop) : Prop where
  key {c : Composition} : P c → c.key = key
  pass {c : Composition} {w w' : World} {result : Except Fault Outcome} : w.Stores c → P c →
    Pass k c w result w' → Holds P w'
  annotate {c : Composition} {field : String} {value : Option String} :
    allowed (.annotate field value) → P c → P (c.annotate field value)
  doom {c : Composition} (time : Instant) : P c → P (c.withDeletion (some time))

section

variable {allowed : Turn → Prop} {P : Composition → Prop}

theorem Steady.of_stored (hP : Steady k key allowed P) (hw : Holds P w)
    (hc : w.store.get? key = some c) : w.Stores c ∧ P c := by
  obtain ⟨d, hd, hholds⟩ := hw
  obtain rfl : d = c := Option.some.inj ((hP.key hholds ▸ hd.symm).trans hc)
  exact ⟨hd, hholds⟩

theorem holds_put (h : P c) : Holds P (w.put c) :=
  ⟨c, Assoc.get?_insert_self _ _ _, h⟩

theorem Takes.holds (hP : Steady k key allowed P) (h : Takes k key w turn w')
    (hturn : allowed turn) (hw : Holds P w) : Holds P w' := by
  cases h with
  | pass stored pass =>
      obtain ⟨hc, hholds⟩ := hP.of_stored hw stored
      exact hP.pass hc hholds pass
  | annotate field value stored =>
      exact holds_put (hP.annotate hturn (hP.of_stored hw stored).2)
  | doom time stored => exact holds_put (hP.doom time (hP.of_stored hw stored).2)
  | outages o => exact hw

/-- What every event keeps, a course of them keeps. -/
theorem Course.holds (hP : Steady k key allowed P) (h : Course k key w turns w')
    (hturns : ∀ turn ∈ turns, allowed turn) (hw : Holds P w) : Holds P w' := by
  induction h with
  | nil w => exact hw
  | cons first rest ih =>
      obtain ⟨hfirst, hrest⟩ := List.forall_mem_cons.mp hturns
      exact ih hrest (first.holds hP hfirst hw)

end

/-- Annotations in order stay so. -/
theorem steady_regular (k : Controller) (key : String) :
    Steady k key (fun _ => True) (Regular key) where
  key h := h.key
  pass hc h hpass := by
    obtain ⟨r, hends⟩ := hpass.ends
    have hkeeps := keeps_reconcile (k := k) (lasting_regular key)
      (fun _ _ h => ⟨h.key, Table.ascending_insert h.annotations⟩) h
    exact (hkeeps ⟨_, hc, h⟩ hends).1
  annotate {c field value} _ h := by
    cases value with
    | none => exact ⟨h.key, Table.ascending_erase h.annotations⟩
    | some value => exact ⟨h.key, Table.ascending_insert h.annotations⟩
  doom _ h := ⟨h.key, h.annotations⟩

/-! ## How long a pause lasts -/

/-- The paused records of a key. -/
structure InPause (key : String) (c : Composition) : Prop where
  key : c.key = key
  pause : c.pause = .paused

theorem get?_annotate_of_ne {field other : String} (h : other ≠ field) (c : Composition)
    (value : Option String) :
    (c.annotate field value).metadata.annotations.get? other =
      c.metadata.annotations.get? other := by
  cases value with
  | none => exact Table.get?_erase_of_ne h _
  | some value => exact Table.get?_insert_of_ne h _ _

/-- Other annotations have nothing to do with a pause. -/
theorem pause_annotate {field : String} {value : Option String}
    (h : ¬(Turn.annotate field value).Pausing) :
    (c.annotate field value).pause = c.pause := by
  obtain ⟨hask, hnote⟩ := not_or.mp h
  have hnoted : (c.annotate field value).metadata.annotations.contains pauseTimeAnnotation =
      c.metadata.annotations.contains pauseTimeAnnotation := by
    unfold Table.contains
    rw [get?_annotate_of_ne (Ne.symm hnote)]
  unfold pause
  rw [wantsPause_eq_of_get? (get?_annotate_of_ne (Ne.symm hask) c value), hnoted]

/-- A pause lasts until the user edits an annotation of the protocol. -/
theorem steady_inPause (k : Controller) (key : String) :
    Steady k key (fun turn => ¬turn.Pausing) (InPause key) where
  key h := h.key
  pass hc h hpass := ⟨_, ((hpass.of_paused h.pause).2.1 .records).stores hc, h⟩
  annotate {c field value} hallowed h := by
    have hkey : (c.annotate field value).key = c.key := by
      cases value <;> rfl
    exact ⟨hkey.trans h.key, (pause_annotate hallowed).trans h.pause⟩
  doom _ h := ⟨h.key, h.pause⟩

/-! ## The protocol -/

/-- **The pause protocol.** Whatever has happened to a record: once it is paused, it stays so until
the user edits an annotation of the protocol, and every pass until then ends well, changes nothing
and tells of one event; a pass that ends well over a record for which no pause is asked leaves no
note of one; and a pass that ends as an update over a record for which one is asked leaves it
paused, and its status says so. At the start the annotations are in order, as in every table that
was built row by row. -/
theorem pause_of_course (hstored : w.store.get? c.key = some c)
    (hannotations : c.metadata.annotations.Ascending) (h : Course k c.key w turns w') :
    ∃ d, w'.store.get? c.key = some d ∧
      (d.pause = .paused → ∀ later mid, Course k c.key w' later mid →
        (∀ turn ∈ later, ¬turn.Pausing) →
          ∃ e, mid.store.get? c.key = some e ∧ e.pause = .paused ∧
            ∀ result after, Pass k e mid result after →
              (∃ outcome, result = .ok outcome) ∧ (∀ x, Same x mid after) ∧
                ∃ event, after.events = mid.events ++ [event]) ∧
      (d.isDeleting = false → d.wantsPause = false →
        ∀ outcome after, Pass k d w' (.ok outcome) after →
          ∃ e, after.store.get? c.key = some e ∧
            e.metadata.annotations.get? pauseTimeAnnotation = none) ∧
      (d.pause = .requested → ∀ after, Pass k d w' (.ok .updated) after →
        ∃ e, after.store.get? c.key = some e ∧ e.pause = .paused ∧
          ∃ since, e.status.condition? Condition.readyType =
            some (.paused StatusWrite.pausedMessage since)) := by
  obtain ⟨d, hd, hregular⟩ :=
    h.holds (steady_regular k c.key) (fun _ _ => trivial) ⟨c, hstored, rfl, hannotations⟩
  rw [← hregular.key]
  refine ⟨d, hd, ?_, ?_, ?_⟩
  · intro hpause later mid hcourse hlater
    obtain ⟨e, he, hpaused⟩ :=
      hcourse.holds (steady_inPause k d.key) hlater ⟨d, hd, rfl, hpause⟩
    exact ⟨e, hpaused.key ▸ he, hpaused.pause, fun _ _ hpass => hpass.of_paused hpaused.pause⟩
  · intro hdeleting hwants outcome after hpass
    obtain ⟨e, he, hunpaused⟩ := unpaused_of_reconcile hd hdeleting hwants
      hregular.annotations.nodup (hpass.ends_ok rfl)
    exact ⟨e, hunpaused.key ▸ he, hunpaused.pauseTime⟩
  · intro hpause after hpass
    obtain ⟨e, he, hrecorded⟩ := paused_of_updated hd hpause (hpass.ends_ok rfl)
    exact ⟨e, hrecorded.key ▸ he, hrecorded.pause, hrecorded.ready⟩

/-- A record for which a pause is asked. -/
def asking : Composition :=
  Composition.sample.withAnnotation pauseAnnotation "true"

/-- A paused record. -/
def dormant : Composition :=
  asking.withAnnotation pauseTimeAnnotation "2026-01-01T00:00:00Z"

/-- The first pass lets a pause take effect, the second one tells of it. And when the user no longer
asks for a pause, the next pass removes the note of it. -/
theorem pause_of_course_asking :
    let first := (released asking).run none (Controller.sample.reconcile asking)
    let resuming := dormant.annotate pauseAnnotation none
    let last := ((released dormant).put resuming).run none (Controller.sample.reconcile resuming)
    first.result = .ok .updated ∧ last.result = .ok .upToDate ∧
      (∃ d, first.state.store.get? asking.key = some d ∧ d.pause = .paused ∧
        let second := first.state.run none (Controller.sample.reconcile d)
        (∃ outcome, second.result = .ok outcome) ∧ (∀ x, Same x first.state second.state) ∧
          ∃ event, second.state.events = first.state.events ++ [event]) ∧
      ∃ d, last.state.store.get? dormant.key = some d ∧
        d.metadata.annotations.get? pauseTimeAnnotation = none := by
  have hfirst : ((released asking).run none (Controller.sample.reconcile asking)).result =
      .ok .updated := Fault.eq_ok_of_toOption (by decide +kernel)
  have hlast : (((released dormant).put (dormant.annotate pauseAnnotation none)).run none
      (Controller.sample.reconcile (dormant.annotate pauseAnnotation none))).result =
        .ok .upToDate := Fault.eq_ok_of_toOption (by decide +kernel)
  have hasking : (released asking).store.get? asking.key = some asking :=
    World.sample_stores "" asking
  have hdormant : (released dormant).store.get? dormant.key = some dormant :=
    World.sample_stores "" dormant
  -- The worlds become variables before the theorem is applied, so that no run is evaluated then.
  generalize released asking = w at hfirst hasking ⊢
  generalize released dormant = w' at hlast hdormant ⊢
  intro first resuming last
  have hpass : Pass Controller.sample asking w first.result first.state := .timed none
  have hresumed : Pass Controller.sample resuming (w'.put resuming) last.result last.state :=
    .timed none
  rw [show first.result = _ from hfirst] at hpass
  rw [show last.result = _ from hlast] at hresumed
  refine ⟨hfirst, hlast, ?_, ?_⟩
  · obtain ⟨c, hc, -, -, hupdated⟩ := pause_of_course (k := Controller.sample) hasking (by decide)
      (.nil w)
    obtain rfl := Option.some.inj (hasking.symm.trans hc)
    obtain ⟨d, hd, hpaused, -⟩ := hupdated (by decide) first.state hpass
    obtain ⟨d', hd', hlater, -⟩ := pause_of_course (k := Controller.sample) hasking (by decide)
      (.cons (.pass hasking hpass) (.nil first.state))
    obtain rfl := Option.some.inj (hd.symm.trans hd')
    obtain ⟨e, he, -, hrest⟩ := hlater hpaused [] first.state (.nil first.state) (by simp)
    obtain rfl := Option.some.inj (hd.symm.trans he)
    exact ⟨d, hd, hpaused, hrest _ _ (.timed none)⟩
  · obtain ⟨c, hc, -, hunpaused, -⟩ := pause_of_course (k := Controller.sample) hdormant (by decide)
      (.cons (.annotate pauseAnnotation none hdormant) (.nil (w'.put resuming)))
    have hresuming : (w'.put resuming).store.get? dormant.key = some resuming :=
      Assoc.get?_insert_self _ _ _
    obtain rfl := Option.some.inj (hresuming.symm.trans hc)
    exact hunpaused (by decide) (by decide) _ _ hresumed

end Controller

end Chartkeeper
