import Chartkeeper.Proofs.Control.Records
/-!
# Which marks of a record last

Observing marks a record and stores the marks. What follows in the same pass still works on the
copy of the record from before. Writing the status of that copy does no harm: the store answers
with the record as it is stored, and the pass goes on from there. But a creation begins by storing
the copy itself where the copy does not carry its release name yet, and with the metadata of the
copy the labels of the definition are gone.

The states in which a pass with a deadline can stop are those in which it can end when calls can
fail. Only the calls up to the first look-up are followed exactly; none of them waits.
-/

namespace Chartkeeper

open World Chartkeeper.Composition

/-- Whether a call looks a release up. -/
def Port.Call.looksUp : Port.Call → Bool
  | .getRelease _ => true
  | _ => false

/-! ## Properties of the stored record -/

namespace Composition

/-- The records of a key with given labels. -/
structure Labelled (key : String) (labels : Table String) (c : Composition) : Prop where
  key : c.key = key
  labels : c.metadata.labels = labels

theorem enduring_labelled (key : String) (labels : Table String) :
    Enduring key (Labelled key labels) where
  key h := h.key
  status _ h := ⟨h.key, h.labels⟩
  merged _ h := ⟨h.key, h.labels⟩
  resumed h := ⟨h.key, h.labels⟩

/-- The records of a key for which no pause is asked and none is noted. -/
structure Unpaused (key : String) (c : Composition) : Prop where
  key : c.key = key
  wantsPause : c.wantsPause = false
  pauseTime : c.metadata.annotations.get? pauseTimeAnnotation = none

theorem enduring_unpaused (key : String) : Enduring key (Unpaused key) where
  key h := h.key
  status _ h := ⟨h.key, h.wantsPause, h.pauseTime⟩
  merged _ h := ⟨h.key, h.wantsPause, h.pauseTime⟩
  resumed {c} h := by
    have hnone : c.removePauseTime.2 = false := by
      show (c.metadata.annotations.get? pauseTimeAnnotation).isSome = false
      rw [h.pauseTime]
      rfl
    rw [eq_of_removePauseTime hnone]
    exact h

end Composition

/-- What the calls before the first look-up of a release have in common. -/
structure Port.Call.Quiet (call : Port.Call) : Prop where
  prompt : ∀ w : World, w.wait call = 0
  backend : ∀ w : World, (w.effect call).2.backend = w.backend
  marking : call.looksUp = false

/-- A clerical call is one of these. -/
theorem Port.Call.Clerical.quiet {call : Port.Call} (h : call.Clerical) : call.Quiet := by
  cases call with
  | getRelease | install | upgrade | rollback | uninstall => exact h.elim
  | _ => exact ⟨fun _ => rfl, fun _ => rfl, rfl⟩

namespace Controller

variable {α : Type} {k : Controller} {w w' : World} {c d : Composition} {key name : String}
  {P : Composition → Prop} {Q : α → Prop} {package : Package} {deadline : Option Nat}
  {elapsed : Nat}

theorem keeps_run {Inv : World → Prop} {p : Task α} (hp : Program.Keeps troubled Inv p Q)
    (hw : Inv w) : Inv (p.run machine deadline w elapsed).state := by
  obtain ⟨r, h⟩ := Program.ends_of_run (m := machine) p deadline w elapsed
  exact (hp hw h).1

/-! ## Marks -/

theorem carries_marked (c : Composition) (d : Definition) : (marked c d).Carries d :=
  carries_setDefinition _ d

theorem releaseName_marked (c : Composition) (d : Definition) :
    (marked c d).metadata.labels.get? releaseNameLabel = some c.releaseName := by
  unfold marked
  rw [get?_setDefinition_releaseName]
  exact get?_setLabel_self c _ _

theorem annotations_marked (c : Composition) (d : Definition) :
    (marked c d).metadata.annotations = c.metadata.annotations.erase pauseTimeAnnotation := by
  unfold marked setDefinition
  rw [annotations_setLabels]
  show (c.setReleaseName c.releaseName).1.metadata.annotations.erase pauseTimeAnnotation = _
  unfold setReleaseName
  rw [annotations_setLabel]

theorem backend_of_quiet {p : Task α} {r : Except Fault α} (hp : p.Only Port.Call.Quiet)
    (h : p.Ends answers w r w') : w'.backend = w.backend :=
  Program.Only.ends (R := fun s t : World => t.backend = s.backend) hp (fun _ => rfl)
    (fun _ _ _ hst htu => htu.trans hst)
    (related_of_effect (fun _ => rfl) fun s _ hcall => hcall.backend s) (troubled_of_answers h)

/-! ## After the marks -/

/-- What a pass does about an observation. -/
def respond (k : Controller) (c : Composition) (observation : Observation) : Task Outcome := do
  if !observation.found then
    k.create c
    return .created
  else if !observation.upToDate then
    update c
    return .updated
  else return .upToDate

/-- What a pass does about a release that was looked up for a marked record. -/
def proceed (k : Controller) (c record : Composition) (package : Package)
    (found : Option Release) : Task Outcome :=
  k.observeFound record c.releaseName package found >>= k.respond c

theorem reconcile_of_mark (hdeleting : c.isDeleting = false) (hpause : c.pause ≠ .paused) :
    k.reconcile c = mark c >>= fun marking =>
      findRelease marking.1 c.releaseName >>= k.proceed c marking.1 marking.2 := by
  rw [reconcile_of_not_deleting hdeleting, observe_of_mark hpause]
  simp only [Program.bind_assoc]
  rfl

/-- With a release, nothing but statuses is written of the copy from before. -/
theorem keeps_proceed_some (hP : Enduring key P)
    (hpaused : ∀ {c} t, c.wantsPause = true → P c → P (c.setPauseTime t)) (hc : c.key = key)
    (hd : d.key = key) (package : Package) (release : Release) :
    Program.Keeps troubled (Holds P) (k.proceed c d package (some release)) fun _ => True := by
  refine Program.keeps_bind (Q := fun observation => observation.found = true) ?_ ?_
  · refine Program.keeps_bind
      (keeps_of_leaves (leaves_recover (by decide) k _ release)) fun before _ => ?_
    exact keeps_renew hP hd _ package before
  · rintro ⟨found, upToDate⟩ hfound
    obtain rfl : found = true := hfound
    cases upToDate with
    | false => exact Program.keeps_bind (keeps_update hP hpaused hc) fun _ _ => Program.keeps_pure trivial
    | true => exact Program.keeps_pure trivial

/-- A creation goes on from a copy that is stored first where it was not named yet. -/
theorem create_of_named (hpause : c.pause ≠ .paused)
    (hnamed : (c.setReleaseName c.releaseName).2 = false) :
    k.create c = k.createNamed c.releaseName c := by
  rw [create_of_not_paused hpause]
  have hsame := eq_of_setReleaseName hnamed
  generalize c.setReleaseName c.releaseName = naming at hnamed hsame ⊢
  obtain ⟨record, changed⟩ := naming
  obtain rfl : changed = false := hnamed
  obtain rfl : record = c := hsame
  rfl

theorem create_of_unnamed (hpause : c.pause ≠ .paused)
    (hnamed : (c.setReleaseName c.releaseName).2 = true) :
    k.create c = saveRecord (c.setReleaseName c.releaseName).1 >>=
      k.createNamed c.releaseName := by
  rw [create_of_not_paused hpause]
  generalize c.setReleaseName c.releaseName = naming at hnamed ⊢
  obtain ⟨record, changed⟩ := naming
  obtain rfl : changed = true := hnamed
  rfl

/-! ## Runs -/

/-- A creation that follows writes a copy over the marks: there is no release, and the copy does
not carry its release name. -/
def Overwrites (w : World) (c : Composition) : Prop :=
  (w.backend.get (releaseKey c c.releaseName)).1 = .ok none ∧
    c.metadata.labels.get? releaseNameLabel ≠ some c.releaseName

theorem changed_setReleaseName {name : String} :
    (c.setReleaseName name).2 = true ↔ c.metadata.labels.get? releaseNameLabel ≠ some name := by
  unfold setReleaseName setLabel
  by_cases hset : c.metadata.labels.get? releaseNameLabel = some name
  · simp [hset]
  · simp [hset]

theorem findRelease_answers {r : Except Fault (Option Release)}
    (h : (findRelease c name).Ends answers w r w') :
    r = Fault.during "finding helm release" (w.backend.get (releaseKey c name)).1 := by
  obtain ⟨r₀, hask, rfl⟩ := Program.ends_during.mp h
  have heffect : w.onBackend (w.backend.get (releaseKey c name)) = (r₀, w') :=
    Program.ends_ask.mp hask
  obtain rfl : (w.backend.get (releaseKey c name)).1 = r₀ := congrArg Prod.fst heffect
  rfl

/-- The store of a world takes every record. -/
theorem saveRecord_answers {r : Except Fault Composition}
    (h : (saveRecord c).Ends answers w r w') : ∃ stored, r = .ok stored := by
  obtain ⟨r₀, hask, rfl⟩ := Program.ends_during.mp h
  have heffect : w.effect (.updateRecord c) = (r₀, w') := Program.ends_ask.mp hask
  obtain rfl : .ok (w.store.update c).1 = r₀ := congrArg Prod.fst heffect
  exact ⟨_, rfl⟩

theorem labels_of_create_named {outcome : Outcome} (hd : w.Stores d) (hkey : c.key = d.key)
    (hpause : c.pause ≠ .paused) (hnamed : (c.setReleaseName c.releaseName).2 = false) :
    Holds (Labelled c.key d.metadata.labels)
      ((k.create c >>= fun _ => pure outcome).run machine deadline w elapsed).state := by
  have hkeeps : Program.Keeps troubled (Holds (Labelled c.key d.metadata.labels))
      (k.create c >>= fun _ => pure outcome) fun _ => True := by
    rw [create_of_named hpause hnamed]
    exact Program.keeps_bind (keeps_createNamed (enduring_labelled _ _) rfl _) fun _ _ =>
      Program.keeps_pure trivial
  exact keeps_run hkeeps ⟨d, hd, hkey.symm, rfl⟩

/-- A creation that begins by storing its copy leaves the labels of that copy, wherever it stops. -/
theorem labels_of_create_unnamed {outcome : Outcome} (hd : w.Stores d) (hkey : c.key = d.key)
    (hpause : c.pause ≠ .paused) (hnamed : (c.setReleaseName c.releaseName).2 = true) :
    Holds (Labelled c.key (c.setReleaseName c.releaseName).1.metadata.labels)
      ((k.create c >>= fun _ => pure outcome).run machine deadline w elapsed).state := by
  rw [create_of_unnamed hpause hnamed, Program.bind_assoc, Program.run_bind]
  have hrecord := (alike_setReleaseName c).key
  generalize (c.setReleaseName c.releaseName).1 = record at hrecord ⊢
  have hprompt : (saveRecord record).Only fun call => ∀ s, machine.wait s call = 0 :=
    Program.only_during (Program.only_ask fun _ => rfl)
  obtain ⟨hends, -⟩ := hprompt.ends_run deadline w elapsed
  generalize (saveRecord record).run machine deadline w elapsed = first at hends ⊢
  obtain ⟨r, w₁, elapsed₁, begun⟩ := first
  obtain ⟨stored, rfl⟩ := saveRecord_answers hends
  obtain ⟨hstored, hw₁⟩ := saveRecord_ok hd (hrecord.trans hkey) (troubled_of_answers hends)
  have hlabelled : Labelled c.key record.metadata.labels stored := by
    rw [hstored]
    exact ⟨hrecord, rfl⟩
  have hkeeps : Program.Keeps troubled (Holds (Labelled c.key record.metadata.labels))
      (k.createNamed c.releaseName stored >>= fun _ => pure outcome) fun _ => True :=
    Program.keeps_bind (keeps_createNamed (enduring_labelled _ _) hlabelled.key _) fun _ _ =>
      Program.keeps_pure trivial
  exact keeps_run hkeeps ⟨stored, hw₁, hlabelled⟩

/-- The labels that are stored after the look-up, wherever the pass stops. -/
theorem labels_of_lookUp (hd : w.Stores d) (halike : Alike c d) (hpause : c.pause ≠ .paused) :
    (Overwrites w c → Holds (Labelled c.key (c.setReleaseName c.releaseName).1.metadata.labels)
      ((findRelease d c.releaseName >>= k.proceed c d package).run machine deadline w
        elapsed).state) ∧
    (¬Overwrites w c → Holds (Labelled c.key d.metadata.labels)
      ((findRelease d c.releaseName >>= k.proceed c d package).run machine deadline w
        elapsed).state) := by
  have hprompt : (findRelease d c.releaseName).Only fun call => ∀ s, machine.wait s call = 0 :=
    Program.only_during (Program.only_ask fun _ => rfl)
  obtain ⟨hends, -⟩ := hprompt.ends_run deadline w elapsed
  rw [Program.run_bind]
  generalize (findRelease d c.releaseName).run machine deadline w elapsed = first at hends ⊢
  obtain ⟨r, w₁, elapsed₁, begun⟩ := first
  have hrecords : Same .records w w₁ :=
    (leaves_findRelease _ _ _).same (troubled_of_answers hends)
  have hkept : Holds (Labelled c.key d.metadata.labels) w₁ :=
    ⟨d, hrecords.stores hd, halike.key, rfl⟩
  have hlabelled := enduring_labelled c.key d.metadata.labels
  have hr := findRelease_answers hends
  dsimp only at hr
  rw [releaseKey_eq_of_alike halike] at hr
  unfold Overwrites
  rw [← changed_setReleaseName]
  subst hr
  -- One case for each answer of the backend; the marks are in danger only where it has none.
  cases hfound : (w.backend.get (releaseKey c c.releaseName)).1 with
  | error fault => exact ⟨fun hover => (nomatch hover.1), fun _ => hkept⟩
  | ok found =>
      cases found with
      | some release =>
          have hkeeps := keeps_proceed_some (k := k) hlabelled
            (fun _ _ h => ⟨h.key, h.labels⟩) rfl halike.key package release
          exact ⟨fun hover => (nomatch hover.1), fun _ => keeps_run hkeeps hkept⟩
      | none =>
          cases hnamed : (c.setReleaseName c.releaseName).2 with
          | true =>
              refine ⟨fun _ => ?_, fun hkeep => absurd ⟨rfl, rfl⟩ hkeep⟩
              exact labels_of_create_unnamed (hrecords.stores hd) halike.key.symm hpause hnamed
          | false =>
              refine ⟨fun hover => (nomatch hover.2), fun _ => ?_⟩
              exact labels_of_create_named (hrecords.stores hd) halike.key.symm hpause hnamed

/-- The labels that are stored after a pass in which a release was looked up. -/
theorem labels_of_reconcile (hstored : w.Stores c) (hdeleting : c.isDeleting = false)
    (hpause : c.pause ≠ .paused)
    (hlook : (w.run deadline (k.reconcile c)).calls.any Port.Call.looksUp = true) :
    (Overwrites w c → Holds (Labelled c.key (c.setReleaseName c.releaseName).1.metadata.labels)
      (w.run deadline (k.reconcile c)).state) ∧
    (¬Overwrites w c → Holds (Labelled c.key (marked c w.package.definition).metadata.labels)
      (w.run deadline (k.reconcile c)).state) := by
  have hquiet : (mark c).Only Port.Call.Quiet :=
    (clerical_mark c).mono fun _ => Port.Call.Clerical.quiet
  have hprompt : (mark c).Only fun call => ∀ s, machine.wait s call = 0 :=
    hquiet.mono fun _ hcall => hcall.prompt
  obtain ⟨hends, -⟩ := hprompt.ends_run deadline w 0
  have hcalls := hquiet.begun (m := machine) deadline w 0
  unfold World.run at hlook ⊢
  rw [reconcile_of_mark hdeleting hpause, Program.run_bind] at hlook ⊢
  generalize (mark c).run machine deadline w 0 = first at hends hcalls hlook ⊢
  obtain ⟨r, w₁, elapsed₁, begun⟩ := first
  cases r with
  | error fault =>
      -- Marking was all there was, and it looks nothing up.
      obtain ⟨call, hcall, hlooks⟩ := List.any_eq_true.mp hlook
      rw [(hcalls call hcall).marking] at hlooks
      exact nomatch hlooks
  | ok marking =>
      obtain ⟨record, package⟩ := marking
      dsimp only at hends ⊢
      obtain ⟨rfl, rfl, hw₁⟩ := mark_ok hstored hpause (troubled_of_answers hends)
      have hbackend : w₁.backend = w.backend := backend_of_quiet hquiet hends
      have hover : Overwrites w₁ c ↔ Overwrites w c := by
        unfold Overwrites
        rw [hbackend]
      rw [← hover]
      exact labels_of_lookUp hw₁ (alike_marked hpause _) hpause

/-! ## The note of a pause -/

theorem unpaused_marked (hpause : c.pause ≠ .paused) (hwants : c.wantsPause = false)
    (hnodup : c.metadata.annotations.keys.Nodup) (definition : Definition) :
    Unpaused c.key (marked c definition) := by
  have halike := alike_marked hpause definition
  refine ⟨halike.key, halike.wantsPause.trans hwants, ?_⟩
  rw [annotations_marked]
  exact Table.get?_erase_self hnodup

/-- A creation that ends well leaves no note, even where its copy brought one back. -/
theorem unpaused_of_create (hd : w.Stores d) (halike : Alike c d) (hstatus : d.status = c.status)
    (hpause : c.pause ≠ .paused) (hwants : c.wantsPause = false)
    (hc : c.metadata.annotations.keys.Nodup) (hnodup : d.metadata.annotations.keys.Nodup)
    (h : (k.create c).Ends troubled w (.ok ()) w') : Holds (Unpaused c.key) w' := by
  rw [create_of_not_paused hpause] at h
  obtain ⟨record, w₁, hsave, h₁⟩ := Program.ends_bind_ok.mp h
  obtain ⟨hrecord, e, he, hce, -, hstored⟩ := saveNamed_ok hd halike hstatus hsave
  have hnamed : Alike c record := hrecord ▸ alike_setReleaseName c
  have hkeys : e.metadata.annotations.keys.Nodup := by
    rcases hstored with rfl | rfl
    · exact hnodup
    · unfold setReleaseName
      rw [annotations_setLabel]
      exact hc
  obtain ⟨_, _, _, _, -, -, -, hlast⟩ :=
    createNamed_ok he (hce.symm.trans hnamed) hnamed.releaseName h₁
  have hasked : e.removePauseTime.1.wantsPause = e.wantsPause :=
    wantsPause_eq_of_get? (Table.get?_erase_of_ne (by decide) _)
  refine ⟨_, hlast, hce.key, ?_, Table.get?_erase_self hkeys⟩
  exact hasked.trans (hce.wantsPause.trans hwants)

/-- After a pass that ends well no pause is noted if none is asked for. -/
theorem unpaused_of_reconcile {outcome : Outcome} (hstored : w.Stores c)
    (hdeleting : c.isDeleting = false) (hwants : c.wantsPause = false)
    (hnodup : c.metadata.annotations.keys.Nodup)
    (h : (k.reconcile c).Ends troubled w (.ok outcome) w') : Holds (Unpaused c.key) w' := by
  have hpause : c.pause ≠ .paused := by
    rw [pause_eq_active_iff.mpr hwants]
    exact nofun
  have hmarked := unpaused_marked hpause hwants hnodup w.package.definition
  have halike := alike_marked hpause w.package.definition
  rw [reconcile_of_not_deleting hdeleting] at h
  obtain ⟨observation, w₁, hobserve, hrest⟩ := Program.ends_bind_ok.mp h
  obtain ⟨-, hfound⟩ := (observe_ok hstored hobserve).resolve_left fun hleft => hpause hleft.1
  cases hfound with
  | absent _ _ hw₁ =>
      obtain ⟨_, _, hcreate, -, rfl⟩ := Program.ends_bind_ok.mp hrest
      have hkeys : (marked c w.package.definition).metadata.annotations.keys.Nodup := by
        rw [annotations_marked]
        exact Table.nodup_keys_erase hnodup
      exact unpaused_of_create hw₁ halike (status_marked c _) hpause hwants hnodup hkeys hcreate
  | stale _ _ _ _ _ _ _ _ hw₁ =>
      obtain ⟨_, _, hupdate, -, rfl⟩ := Program.ends_bind_ok.mp hrest
      have hkeeps := keeps_update (c := c) (enduring_unpaused c.key)
        (fun _ hasked h => absurd h.wantsPause (by simp [hasked])) rfl
      exact (hkeeps ⟨_, hw₁, hmarked⟩ hupdate).1
  | current _ _ _ _ _ _ _ _ now hw₁ =>
      obtain ⟨-, rfl⟩ := hrest
      exact ⟨_, hw₁, (enduring_unpaused c.key).status _ hmarked⟩

/-! ## What a pass leaves of the marks -/

/-- **Which marks last.** After a pass in which the release of the record was looked up, however it
ends, the stored record carries its release name. It carries the labels of the definition exactly
if no creation wrote them over, or the record carried them before. If the pass ends well and no
pause is asked for, none is noted. -/
theorem marks_of_reconcile (hstored : w.store.get? c.key = some c)
    (hdeleting : c.isDeleting = false) (hpause : c.pause ≠ .paused)
    (hlook : (w.run deadline (k.reconcile c)).calls.any Port.Call.looksUp = true) :
    ∃ d, (w.run deadline (k.reconcile c)).state.store.get? c.key = some d ∧
      d.metadata.labels.get? releaseNameLabel = some c.releaseName ∧
      (d.Carries w.package.definition ↔
        ¬Overwrites w c ∨ c.Carries w.package.definition) ∧
      (c.metadata.annotations.keys.Nodup → c.wantsPause = false →
        ∀ outcome, (w.run deadline (k.reconcile c)).result = .ok outcome →
          d.metadata.annotations.get? pauseTimeAnnotation = none) := by
  obtain ⟨hlost, hkept⟩ := labels_of_reconcile hstored hdeleting hpause hlook
  have hnote : ∀ d, (w.run deadline (k.reconcile c)).state.Stores d → d.key = c.key →
      c.metadata.annotations.keys.Nodup → c.wantsPause = false →
      ∀ outcome, (w.run deadline (k.reconcile c)).result = .ok outcome →
        d.metadata.annotations.get? pauseTimeAnnotation = none := by
    intro d hd hkey hnodup hwants outcome hresult
    have hunpaused := unpaused_of_reconcile hstored hdeleting hwants hnodup
      (troubled_of_answers (Program.ends_of_run_ok hresult))
    exact (hunpaused.of_stores (enduring_unpaused c.key) hd hkey).pauseTime
  by_cases hover : Overwrites w c
  · obtain ⟨d, hd, hlabelled⟩ := hlost hover
    refine ⟨d, hlabelled.key ▸ hd, ?_, ?_, hnote d hd hlabelled.key⟩
    · rw [hlabelled.labels]
      exact get?_setLabel_self c _ _
    · rw [carries_congr hlabelled.labels]
      exact carries_setReleaseName.trans ⟨Or.inr, fun h => h.resolve_left (not_not_intro hover)⟩
  · obtain ⟨d, hd, hlabelled⟩ := hkept hover
    refine ⟨d, hlabelled.key ▸ hd, ?_, ?_, hnote d hd hlabelled.key⟩
    · rw [hlabelled.labels]
      exact releaseName_marked c _
    · rw [carries_congr hlabelled.labels]
      exact ⟨fun _ => Or.inl hover, fun _ => carries_marked c _⟩

/-- The definition of a package. -/
def sampleDefinition : Definition := ⟨"web", "platform", ⟨"core", "v1", "definitions"⟩⟩

/-- A world whose package has a definition. -/
def defining (record : Composition) : World :=
  let w := World.sample "" record
  { w with package := { w.package with definition := sampleDefinition } }

/-- A record that carries its release name. -/
def namedSample : Composition :=
  (Composition.sample.setReleaseName Composition.sample.releaseName).1

theorem marks_of_reconcile_named :
    ∃ d, ((defining namedSample).run none
        (Controller.sample.reconcile namedSample)).state.store.get? namedSample.key = some d ∧
      d.metadata.labels.get? releaseNameLabel = some namedSample.releaseName ∧
      d.Carries sampleDefinition ∧ d.metadata.annotations.get? pauseTimeAnnotation = none := by
  have hresult : ((defining namedSample).run none
      (Controller.sample.reconcile namedSample)).result = .ok .created :=
    Fault.eq_ok_of_toOption (by decide +kernel)
  have hlook : ((defining namedSample).run none
      (Controller.sample.reconcile namedSample)).calls.any Port.Call.looksUp = true := by
    decide +kernel
  have hnamed : ¬Overwrites (defining namedSample) namedSample := by
    rintro ⟨-, hunnamed⟩
    exact hunnamed (by decide)
  obtain ⟨d, hd, hname, hcarries, hnote⟩ := marks_of_reconcile (w := defining namedSample)
    (World.sample_stores "" namedSample) (by decide) (by decide) hlook
  exact ⟨d, hd, hname, hcarries.mpr (Or.inl hnamed),
    hnote (by decide) (by decide) .created hresult⟩

/-- **The first creation loses the labels of the definition**, right after observing stored them. -/
theorem marks_lost_of_created :
    (defining .sample).store.get? Composition.sample.key = some .sample ∧
      Composition.sample.isDeleting = false ∧ Composition.sample.pause ≠ .paused ∧
      ((defining .sample).run none (Controller.sample.reconcile .sample)).calls.any
        Port.Call.looksUp = true ∧
      ((defining .sample).run none (Controller.sample.reconcile .sample)).result = .ok .created ∧
      ∃ d, ((defining .sample).run none (Controller.sample.reconcile .sample)).state.store.get?
          Composition.sample.key = some d ∧ ¬d.Carries sampleDefinition := by
  have hlook : ((defining .sample).run none
      (Controller.sample.reconcile .sample)).calls.any Port.Call.looksUp = true := by
    decide +kernel
  have hresult : ((defining .sample).run none (Controller.sample.reconcile .sample)).result =
      .ok .created := Fault.eq_ok_of_toOption (by decide +kernel)
  have hlost : (((defining .sample).run none (Controller.sample.reconcile .sample)).state.store.get?
      Composition.sample.key).map (fun d => decide (d.Carries sampleDefinition)) = some false := by
    decide +kernel
  obtain ⟨d, hd, hcarries⟩ := Option.map_eq_some_iff.mp hlost
  exact ⟨World.sample_stores "" .sample, by decide, by decide, hlook, hresult, d, hd,
    of_decide_eq_false hcarries⟩

end Controller

end Chartkeeper
