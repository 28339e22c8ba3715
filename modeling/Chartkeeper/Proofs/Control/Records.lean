import Chartkeeper.Proofs.Control.Changes
/-!
# What a stored record keeps

A controller marks a record and writes its status, and a write that stores the one leaves the
other alone. A property of records that all of this keeps is *lasting*: once it holds of the
stored record, it holds of it wherever an operation stops, whichever calls fail.
-/

namespace Chartkeeper

open World Chartkeeper.Composition

/-- A property of the records of one key that marking a record, writing its status and storing it
keep. -/
structure Lasting (key : String) (P : Composition → Prop) : Prop where
  key {c : Composition} : P c → c.key = key
  status {c : Composition} (status : Status) : P c → P { c with status }
  merged {c d : Composition} : P c → P d → P { c with metadata := d.metadata, spec := d.spec }
  named {c : Composition} : P c → P (c.setReleaseName c.releaseName).1
  resumed {c : Composition} : P c → P c.removePauseTime.1
  defined {c : Composition} (d : Definition) : P c → P (c.setDefinition d).1

/-- A property of the records of one key that storing a record and writing its status keep, if
only what is stored has it: a status is written into the stored record. -/
structure Enduring (key : String) (P : Composition → Prop) : Prop where
  key {c : Composition} : P c → c.key = key
  status {c : Composition} (status : Status) : P c → P { c with status }
  merged {c d : Composition} : P c → P d → P { c with metadata := d.metadata, spec := d.spec }
  resumed {c : Composition} : P c → P c.removePauseTime.1

theorem Lasting.enduring {key : String} {P : Composition → Prop} (h : Lasting key P) :
    Enduring key P :=
  ⟨h.key, h.status, h.merged, h.resumed⟩

/-- What is made of a record lasts while no pause is in effect. -/
theorem lasting_alike {c : Composition} (hpause : c.pause ≠ .paused) :
    Lasting c.key (Alike c) where
  key h := h.key
  status _ h := h.trans (alike_status _ _)
  merged h h' := ⟨h.apiVersion, h.kind, h'.spec, h'.name, h'.namespaceName, h'.uid,
    h'.deletionTime, h'.releaseName, h'.pause⟩
  named h := h.trans (alike_setReleaseName _)
  resumed h := h.trans (alike_removePauseTime (by rw [h.pause]; exact hpause))
  defined d h := h.trans (alike_setDefinition _ d)

/-- The stored record has a property. -/
def World.Holds (P : Composition → Prop) (w : World) : Prop :=
  ∃ d, w.Stores d ∧ P d

theorem World.Holds.of_stores {key : String} {P : Composition → Prop} {w : World} {d : Composition}
    (h : w.Holds P) (hP : Enduring key P) (hd : w.Stores d) (hkey : d.key = key) : P d := by
  obtain ⟨e, he, hholds⟩ := h
  unfold Stores at hd he
  rw [hkey] at hd
  rw [hP.key hholds] at he
  obtain rfl : d = e := Option.some.inj (hd.symm.trans he)
  exact hholds

namespace Controller

variable {α : Type} {k : Controller} {key : String} {P : Composition → Prop} {c d : Composition}
  {Q : α → Prop}

/-! ## Steps -/

theorem keeps_of_leaves {p : Task α} (hp : Leaves .records p) :
    Program.Keeps troubled (Holds P) p fun _ => True := by
  rintro w r w' ⟨d, hd, hP⟩ h
  exact ⟨⟨d, (hp.same h).stores hd, hP⟩, fun _ _ => trivial⟩

theorem keeps_saveRecord (hP : Enduring key P) (hc : P c) :
    Program.Keeps troubled (Holds P) (saveRecord c) P := by
  rintro w r w' ⟨d, hd, hd'⟩ h
  cases r with
  | ok stored =>
      obtain ⟨rfl, hstored⟩ := saveRecord_ok hd ((hP.key hc).trans (hP.key hd').symm) h
      have hmerged := hP.merged hd' hc
      exact ⟨⟨_, hstored, hmerged⟩, fun a ha => Except.ok.inj ha ▸ hmerged⟩
  | error fault =>
      -- A write of metadata and spec fails only where it does not come through.
      obtain ⟨r₀, hask, hr⟩ := Program.ends_during.mp h
      rcases Program.ends_ask.mp hask with heffect | ⟨-, rfl⟩
      · obtain rfl := (congrArg Prod.fst heffect).symm
        exact nomatch hr
      · exact ⟨⟨d, hd, hd'⟩, fun _ ha => nomatch ha⟩

theorem keeps_updateStatus (hP : Enduring key P) (hkey : c.key = key) :
    Program.Keeps troubled (Holds P) (Task.updateStatus c) P := by
  rintro w r w' ⟨d, hd, hd'⟩ h
  cases r with
  | ok stored =>
      obtain ⟨rfl, hstored⟩ := Task.updateStatus_ok hd (hkey.trans (hP.key hd').symm) h
      have hstatus := hP.status c.status hd'
      exact ⟨⟨_, hstored, hstatus⟩, fun a ha => Except.ok.inj ha ▸ hstatus⟩
  | error fault =>
      exact ⟨⟨d, (Task.updateStatus_error h).stores hd, hd'⟩, fun _ ha => nomatch ha⟩

theorem keeps_saveStatus (hP : Enduring key P) (hkey : c.key = key) :
    Program.Keeps troubled (Holds P) (saveStatus c) P :=
  Program.keeps_during (keeps_updateStatus hP hkey)

theorem keeps_saveIf (hP : Enduring key P) (hc : P c) (changed : Bool) :
    Program.Keeps troubled (Holds P) (saveIf changed c) P := by
  cases changed with
  | false => exact Program.keeps_pure hc
  | true => exact keeps_saveRecord hP hc

theorem keeps_writeStatus {R : Composition → Prop} (hR : ∀ status, R { c with status })
    (write : StatusWrite) :
    Program.Keeps troubled (Holds P) (writeStatus c write) fun written => R written.1 :=
  Program.keeps_bind (keeps_of_leaves (Task.leaves_now _)) fun _ _ =>
    Program.keeps_pure (hR _)

theorem keeps_noted (hP : Enduring key P) (hkey : c.key = key) {operation : String} {p : Task α}
    (hp : Program.Keeps troubled (Holds P) p Q) :
    Program.Keeps troubled (Holds P) (noted c operation p) Q := by
  refine Program.keeps_bind (Program.keeps_outcome hp) fun outcome houtcome => ?_
  cases outcome with
  | ok a => exact Program.keeps_pure (houtcome a rfl)
  | error fault =>
      refine Program.keeps_bind (keeps_of_leaves (Task.leaves_now _)) fun now _ => ?_
      refine Program.keeps_bind (keeps_of_leaves (Task.leaves_announce _ _ _)) fun _ _ => ?_
      refine Program.keeps_bind
        (Program.keeps_outcome (keeps_updateStatus hP (by exact hkey))) fun stored _ => ?_
      cases stored with
      | ok _ => exact Program.keeps_fail
      | error _ => exact Program.keeps_fail

/-! ## Operations -/

theorem keeps_renew (hP : Enduring key P) (hkey : c.key = key) (name : String)
    (package : Package) (before : Release) :
    Program.Keeps troubled (Holds P) (k.renew c name package before)
      fun observation => observation.found = true := by
  refine Program.keeps_bind (keeps_of_leaves (leaves_findResource _ c)) fun resource _ => ?_
  refine Program.keeps_bind (keeps_noted hP hkey
    (keeps_of_leaves (leaves_installPermissions (by decide) k c name resource package))) ?_
  refine fun _ _ => Program.keeps_bind (Program.keeps_lift fun _ _ => trivial) fun action _ => ?_
  refine Program.keeps_bind (keeps_noted hP hkey
    (keeps_of_leaves (Program.only_during (Task.leaves_upgrade (by decide) _ _ _ _)))) ?_
  intro after _
  by_cases hout : Outdated c before after
  · rw [observeUpgraded_of_outdated hout]
    exact Program.keeps_pure rfl
  · rw [observeUpgraded_of_not_outdated hout]
    refine Program.keeps_bind (keeps_writeStatus (R := fun d => d.key = key) (fun _ => hkey) _) ?_
    intro written hwritten
    obtain ⟨written, changed⟩ := written
    cases changed with
    | false => exact Program.keeps_pure rfl
    | true =>
        exact Program.keeps_bind (keeps_saveStatus hP hwritten) fun _ _ =>
          Program.keeps_pure rfl

theorem keeps_observeNamed (hP : Lasting key P) (hc : P c) (name : String) :
    Program.Keeps troubled (Holds P) (k.observeNamed name c) fun _ => True := by
  refine Program.keeps_bind (keeps_of_leaves (leaves_findPackage _ c)) fun package _ => ?_
  have hdefined := hP.defined package.definition hc
  generalize c.setDefinition package.definition = marking at hdefined ⊢
  obtain ⟨marked, defined⟩ := marking
  refine Program.keeps_bind (keeps_saveIf hP.enduring hdefined defined) fun record hrecord => ?_
  refine Program.keeps_bind (keeps_of_leaves (leaves_findRelease _ record name)) fun found _ => ?_
  cases found with
  | none => exact Program.keeps_pure trivial
  | some release =>
      refine Program.keeps_bind
        (keeps_of_leaves (leaves_recover (by decide) k _ release)) fun before _ => ?_
      exact (keeps_renew hP.enduring (hP.key hrecord) name package before).mono fun _ _ => trivial

/-- Observing keeps what lasts, wherever it stops. -/
theorem keeps_observe (hP : Lasting key P) (hc : P c) :
    Program.Keeps troubled (Holds P) (k.observe c) fun _ => True := by
  by_cases hpause : c.pause = .paused
  · rw [observe_of_paused hpause]
    exact Program.keeps_bind (keeps_of_leaves (Task.leaves_announce _ _ _)) fun _ _ =>
      Program.keeps_pure trivial
  · rw [observe_of_not_paused hpause]
    refine Program.keeps_bind (keeps_saveIf hP.enduring (hP.resumed (hP.named hc)) _) ?_
    exact fun record hrecord => keeps_observeNamed hP hrecord _

theorem keeps_recordCreated (hP : Enduring key P) (hkey : c.key = key) (package : Package)
    (release : Release) :
    Program.Keeps troubled (Holds P) (recordCreated c package release) fun _ => True := by
  refine Program.keeps_bind (keeps_of_leaves (leaves_describe _ release)) fun described _ => ?_
  refine Program.keeps_bind (keeps_writeStatus (R := fun d => d.key = key) (fun _ => hkey) _) ?_
  intro written hwritten
  refine Program.keeps_bind (keeps_of_leaves (Task.leaves_announce _ _ _)) fun _ _ => ?_
  refine Program.keeps_bind (keeps_saveStatus hP hwritten) fun record hrecord => ?_
  exact Program.keeps_bind (keeps_saveRecord hP (hP.resumed hrecord)) fun _ _ =>
    Program.keeps_pure trivial

theorem keeps_createNamed (hP : Enduring key P) (hkey : c.key = key) (name : String) :
    Program.Keeps troubled (Holds P) (k.createNamed name c) fun _ => True := by
  refine Program.keeps_bind (keeps_of_leaves (leaves_findPackage _ c)) fun package _ => ?_
  refine Program.keeps_bind
    (keeps_of_leaves (leaves_make (by decide) (by decide) k _ c package)) fun release _ => ?_
  exact keeps_recordCreated hP hkey package release

/-- Creating keeps what lasts, wherever it stops. -/
theorem keeps_create (hP : Lasting key P) (hc : P c) :
    Program.Keeps troubled (Holds P) (k.create c) fun _ => True := by
  by_cases hpause : c.pause = .paused
  · rw [create_of_paused hpause]
    exact keeps_of_leaves leaves_told
  · rw [create_of_not_paused hpause]
    refine Program.keeps_bind (keeps_saveIf hP.enduring (hP.named hc) _) fun record hrecord => ?_
    exact keeps_createNamed hP.enduring (hP.key hrecord) _

theorem keeps_settle (hP : Enduring key P)
    (hpaused : ∀ {c} t, c.wantsPause = true → P c → P (c.setPauseTime t)) (hc : P c)
    (write : StatusWrite) :
    Program.Keeps troubled (Holds P) (settle c write) fun _ => True := by
  have hsave {record : Composition} (hrecord : P record) :
      Program.Keeps troubled (Holds P) (do let _ ← saveRecord record) fun _ => True :=
    Program.keeps_bind (keeps_saveRecord hP hrecord) fun _ _ => Program.keeps_pure trivial
  unfold settle
  cases hwants : c.wantsPause with
  | false =>
      exact Program.keeps_bind (Program.keeps_pure (hP.resumed hc)) fun record hrecord =>
        hsave hrecord
  | true =>
      refine Program.keeps_bind (p := enterPause c write) (Q := P) ?_ fun record hrecord =>
        hsave hrecord
      refine Program.keeps_bind (keeps_of_leaves (Task.leaves_now _)) fun noted _ => ?_
      refine Program.keeps_bind
        (keeps_writeStatus (R := P) (fun _ => hP.status _ (hpaused noted hwants hc)) _) ?_
      intro written hwritten
      obtain ⟨written, changed⟩ := written
      have htell : Program.Keeps troubled (Holds P) (do
          Task.announce written
            ⟨.normal, pausedReason, "Update",
              "Reconciliation paused via the gracefully paused annotation."⟩
          return written) P :=
        Program.keeps_bind (keeps_of_leaves (Task.leaves_announce _ _ _)) fun _ _ =>
          Program.keeps_pure hwritten
      cases changed with
      | false => exact htell
      | true =>
          exact Program.keeps_bind (keeps_saveStatus hP (hP.key hwritten)) fun _ _ => htell

/-- Updating keeps what endures, wherever it stops, and whatever copy of the record it works on. A
pause that takes effect has to keep it, too. -/
theorem keeps_update (hP : Enduring key P)
    (hpaused : ∀ {c} t, c.wantsPause = true → P c → P (c.setPauseTime t)) (hkey : c.key = key) :
    Program.Keeps troubled (Holds P) (update c) fun _ => True := by
  by_cases hpause : c.pause = .paused
  · rw [update_of_paused hpause]
    exact keeps_of_leaves leaves_told
  · rw [update_of_not_paused hpause]
    refine Program.keeps_bind (keeps_of_leaves (leaves_findPackage _ c)) fun package _ => ?_
    refine Program.keeps_bind (keeps_of_leaves (leaves_findRelease _ c _)) fun found _ => ?_
    cases found with
    | none => exact Program.keeps_fail
    | some release =>
        refine Program.keeps_bind (keeps_of_leaves (leaves_describe _ release)) ?_
        rintro ⟨managed, digest⟩ -
        refine Program.keeps_bind (keeps_of_leaves (Task.leaves_announce _ _ _)) fun _ _ => ?_
        refine Program.keeps_bind (keeps_writeStatus
          (c := { c with status := { c.status with managed } }) (R := fun d => d.key = key)
          (fun _ => hkey) _) ?_
        intro written hwritten
        refine Program.keeps_bind (keeps_saveStatus hP hwritten) fun record hrecord => ?_
        exact keeps_settle hP hpaused hrecord _

/-- Deleting keeps what lasts, wherever it stops. -/
theorem keeps_delete (hP : Lasting key P) (hc : P c) :
    Program.Keeps troubled (Holds P) (k.delete c) fun _ => True := by
  by_cases hpause : c.pause = .paused
  · rw [delete_of_paused hpause]
    exact keeps_of_leaves leaves_told
  · unfold delete
    rw [if_neg hpause]
    refine Program.keeps_bind (keeps_of_leaves (leaves_findPackage _ c)) fun package _ => ?_
    refine Program.keeps_bind (keeps_of_leaves (leaves_findRelease _ c _)) fun found _ => ?_
    cases found with
    | none =>
        exact keeps_of_leaves leaves_told
    | some release =>
        refine Program.keeps_bind (keeps_of_leaves
          (Program.only_during (Task.leaves_uninstall (by decide) _ _))) fun _ _ => ?_
        refine Program.keeps_bind (keeps_of_leaves (leaves_findRelease _ c _)) fun left _ => ?_
        cases left with
        | some _ => exact Program.keeps_fail
        | none =>
            refine Program.keeps_bind (keeps_of_leaves (leaves_findResource _ c)) fun _ _ => ?_
            refine Program.keeps_bind (keeps_of_leaves
              (Program.only_during (Owner.leaves_generate _ _ _ _))) fun bundle _ => ?_
            refine Program.keeps_bind (keeps_of_leaves
              (Program.only_during (Bundle.leaves_uninstall (by decide) bundle))) fun _ _ => ?_
            refine Program.keeps_bind (keeps_of_leaves (Task.leaves_announce _ _ _)) fun _ _ => ?_
            exact Program.keeps_bind (keeps_saveRecord hP.enduring (hP.resumed hc)) fun _ _ =>
              Program.keeps_pure trivial

end Controller

end Chartkeeper
