import Chartkeeper.Proofs.Composition.ReleaseName
import Chartkeeper.Proofs.Control.Changes
import Chartkeeper.Proofs.Control.Removal
/-!
# Whose release an operation reaches

An operation on a record works on one release, the one that the namespace and the release name of
the record stand for. It leaves the history of every other release as it is, whichever calls fail.
So two records keep out of each other's way exactly when their release names differ.

A pass that ends as a deletion has left no release under that name, unless the record is paused;
then it has left everything as it was.
-/

namespace Chartkeeper

open World Chartkeeper.Composition

/-! ## Other releases -/

/-- The release whose history a call can change. -/
def Port.Call.release? : Port.Call → Option ReleaseKey
  | .install key .. | .upgrade key .. | .rollback key _ | .uninstall key _ => some key
  | _ => none

theorem World.history_effect {call : Port.Call} {other : ReleaseKey}
    (h : call.release? ≠ some other) (w : World) :
    (w.effect call).2.backend.history other = w.backend.history other := by
  have hne {key : ReleaseKey} (h : some key ≠ some other) : other ≠ key := by
    rintro rfl
    exact h rfl
  cases call with
  | getRelease key =>
      show (w.backend.get key).2.history other = _
      unfold Backend.history
      rw [w.backend.histories_get key]
  | install key url action => exact Backend.history_install_of_ne (hne h) _ _ _
  | upgrade key url action limit => exact Backend.history_upgrade_of_ne (hne h) _ _ _ _
  | rollback key limit => exact Backend.history_rollback_of_ne (hne h) _ _
  | uninstall key ignoreMissing => exact Backend.history_uninstall_of_ne (hne h) _ _
  | _ => rfl

/-- A task that cannot change the history of a release, whatever its calls are answered with. -/
def Avoids {α : Type} (other : ReleaseKey) (p : Task α) : Prop :=
  p.Only fun call : Port.Call => call.release? ≠ some other

/-- The history of a release in a world. -/
def World.Lists (other : ReleaseKey) (releases : List Release) (w : World) : Prop :=
  w.backend.history other = releases

namespace Controller

variable {α : Type} {k : Controller} {w w' : World} {c d : Composition} {name : String}
  {key other : ReleaseKey} {releases : List Release}

theorem avoids_of_leaves {p : Task α} (hp : Leaves .releases p) : Avoids other p := by
  refine hp.mono fun call hcall => ?_
  cases call with
  | install | upgrade | rollback | uninstall => exact absurd rfl hcall
  | _ => exact nofun

theorem lists_of_avoids {p : Task α} (hp : Avoids other p) :
    Program.Keeps troubled (Lists other releases) p fun _ => True := by
  intro w r w' hw h
  refine ⟨?_, fun _ _ => trivial⟩
  have hsame : w'.backend.history other = w.backend.history other := by
    refine Program.Only.ends (R := fun s t : World =>
      t.backend.history other = s.backend.history other) hp (fun _ => rfl)
      (fun _ _ _ hst htu => htu.trans hst) ?_ h
    exact related_of_effect (fun _ => rfl) fun s _ hcall => history_effect hcall s
  exact hsame.trans hw

/-- What the store answers with after a write stays in the namespace of what was written. -/
theorem lists_saveIf (changed : Bool) (c : Composition) :
    Program.Keeps troubled (Lists other releases) (saveIf changed c)
      fun stored => stored.namespaceName = c.namespaceName := by
  intro w r w' hw h
  have hleaves := leaves_saveIf (x := .releases) (by decide) changed c
  refine ⟨(lists_of_avoids (avoids_of_leaves hleaves) hw h).1, ?_⟩
  rintro stored rfl
  cases changed with
  | false =>
      obtain ⟨hstored, -⟩ := h
      rw [Except.ok.inj hstored]
  | true =>
      have heffect := ends_ask_ok.mp (Program.ends_during_ok.mp h)
      obtain rfl := Except.ok.inj (congrArg Prod.fst heffect)
      rfl

theorem avoids_recover (hne : key ≠ other) (release : Release) :
    Avoids other (k.recover key release) := by
  unfold recover
  split
  · exact Program.only_during (Program.only_ask fun h => hne (Option.some.inj h))
  · exact Program.only_pure

theorem avoids_renew (hne : releaseKey c name ≠ other) (package : Package) (before : Release) :
    Avoids other (k.renew c name package before) := by
  have hnoting {α : Type} (fault : Fault) : Avoids other (failNoted c "Observe" fault : Task α) :=
    avoids_of_leaves (leaves_failNoted (by decide) _ fault)
  refine Program.only_bind (avoids_of_leaves (leaves_findResource _ c)) fun resource => ?_
  refine Program.only_bind (only_noted (avoids_of_leaves
    (leaves_installPermissions (by decide) k c name resource package)) hnoting) fun _ => ?_
  refine Program.only_bind Program.only_lift fun action => ?_
  refine Program.only_bind (only_noted (Program.only_during
    (Program.only_ask fun h => hne (Option.some.inj h))) hnoting) fun after => ?_
  exact avoids_of_leaves (leaves_observeUpgraded (by decide) _ _ _ _)

theorem avoids_make (hne : releaseKey c name ≠ other) (package : Package) :
    Avoids other (k.make name c package) := by
  refine Program.only_bind (avoids_of_leaves (leaves_findResource _ c)) fun resource => ?_
  refine Program.only_bind (avoids_of_leaves (Program.only_during
    (leaves_installPermissions (by decide) k c name resource package))) fun _ => ?_
  refine Program.only_bind Program.only_lift fun action => ?_
  refine Program.only_bind (avoids_of_leaves (leaves_findRelease _ c name)) fun existing => ?_
  cases existing with
  | none =>
      exact Program.only_during (Program.only_ask fun h => hne (Option.some.inj h))
  | some _ =>
      exact Program.only_during (Program.only_ask fun h => hne (Option.some.inj h))

theorem avoids_delete (hne : releaseKey c c.releaseName ≠ other) : Avoids other (k.delete c) := by
  unfold delete
  split
  · exact avoids_of_leaves leaves_told
  · refine Program.only_bind (avoids_of_leaves (leaves_findPackage _ c)) fun package => ?_
    refine Program.only_bind (avoids_of_leaves (leaves_findRelease _ c _)) fun found => ?_
    split
    · exact avoids_of_leaves leaves_told
    · refine Program.only_bind (Program.only_during
        (Program.only_ask fun h => hne (Option.some.inj h))) fun _ => ?_
      refine Program.only_bind (avoids_of_leaves (leaves_findRelease _ c _)) fun left => ?_
      split
      · exact Program.only_fail
      · exact avoids_of_leaves (leaves_dismantle (by decide) (by decide) k c package)

theorem lists_observeNamed (hne : releaseKey c name ≠ other)
    (hspace : d.namespaceName = c.namespaceName) :
    Program.Keeps troubled (Lists other releases) (k.observeNamed name d) fun _ => True := by
  refine Program.keeps_bind (lists_of_avoids (avoids_of_leaves (leaves_findPackage _ d))) ?_
  intro package _
  have hdefined := (alike_setDefinition d package.definition).namespaceName
  generalize d.setDefinition package.definition = marking at hdefined ⊢
  obtain ⟨marked, defined⟩ := marking
  -- From here on the record is what the store answered; only its namespace enters the key.
  refine Program.keeps_bind (lists_saveIf defined marked) fun record hrecord => ?_
  have hkey : releaseKey record name ≠ other := by
    rw [releaseKey_eq_of_namespaceName (hrecord.trans (hdefined.trans hspace))]
    exact hne
  refine lists_of_avoids
    (Program.only_bind (avoids_of_leaves (leaves_findRelease _ record name)) fun found => ?_)
  cases found with
  | none => exact Program.only_pure
  | some release =>
      exact Program.only_bind (avoids_recover hkey release) fun before =>
        avoids_renew hkey package before

theorem lists_observe (hne : releaseKey c c.releaseName ≠ other) :
    Program.Keeps troubled (Lists other releases) (k.observe c) fun _ => True := by
  by_cases hpause : c.pause = .paused
  · rw [observe_of_paused hpause]
    exact lists_of_avoids (avoids_of_leaves leaves_told)
  · rw [observe_of_not_paused hpause]
    refine Program.keeps_bind (lists_saveIf _ _) fun record hrecord => ?_
    exact lists_observeNamed hne (hrecord.trans (alike_resumed hpause).namespaceName)

theorem lists_create (hne : releaseKey c c.releaseName ≠ other) :
    Program.Keeps troubled (Lists other releases) (k.create c) fun _ => True := by
  by_cases hpause : c.pause = .paused
  · rw [create_of_paused hpause]
    exact lists_of_avoids (avoids_of_leaves leaves_told)
  · rw [create_of_not_paused hpause]
    refine Program.keeps_bind (lists_saveIf _ _) fun record hrecord => ?_
    have hkey : releaseKey record c.releaseName ≠ other := by
      rw [releaseKey_eq_of_namespaceName (hrecord.trans (alike_setReleaseName c).namespaceName)]
      exact hne
    refine lists_of_avoids
      (Program.only_bind (avoids_of_leaves (leaves_findPackage _ record)) fun package => ?_)
    exact Program.only_bind (avoids_make hkey package) fun release =>
      avoids_of_leaves (leaves_recordCreated (by decide) record package release)

theorem lists_perform (hne : releaseKey c c.releaseName ≠ other) (deed : Deed) :
    Program.Keeps troubled (Lists other releases) (k.perform c deed) fun _ => True := by
  cases deed with
  | observe => exact Program.keeps_bind (lists_observe hne) fun _ _ => Program.keeps_pure trivial
  | create => exact lists_create hne
  | update => exact lists_of_avoids (avoids_of_leaves (leaves_update (by decide) c))
  | delete => exact lists_of_avoids (avoids_delete hne)

/-- **An operation leaves every other release alone**, however it ends and whichever calls fail. -/
theorem history_of_perform {r : Except Fault Unit} (hne : releaseKey c c.releaseName ≠ other)
    {deed : Deed} (h : (k.perform c deed).Ends troubled w r w') :
    w'.backend.history other = w.backend.history other :=
  (lists_perform hne deed rfl h).1

theorem reconcile_of_deleting (h : c.isDeleting = true) :
    k.reconcile c = (do
      k.delete c
      return .deleted) := by
  unfold reconcile Client.reconcile
  rw [h]
  rfl

/-- **So does a pass.** -/
theorem history_of_reconcile {r : Except Fault Outcome} (hne : releaseKey c c.releaseName ≠ other)
    (h : (k.reconcile c).Ends troubled w r w') :
    w'.backend.history other = w.backend.history other := by
  have hkeeps : Program.Keeps troubled (Lists other (w.backend.history other)) (k.reconcile c)
      fun _ => True := by
    cases hdeleting : c.isDeleting with
    | true =>
        rw [reconcile_of_deleting hdeleting]
        exact Program.keeps_bind (lists_of_avoids (avoids_delete hne)) fun _ _ =>
          Program.keeps_pure trivial
    | false =>
        rw [reconcile_of_not_deleting hdeleting]
        refine Program.keeps_bind (lists_observe hne) fun observation _ => ?_
        split
        · exact Program.keeps_bind (lists_create hne) fun _ _ => Program.keeps_pure trivial
        · split
          · exact Program.keeps_bind
              (lists_of_avoids (avoids_of_leaves (leaves_update (by decide) c))) fun _ _ =>
                Program.keeps_pure trivial
          · exact Program.keeps_pure trivial
  exact (hkeeps rfl h).1

/-! ## Two records -/

/-- **When two records share a release.** Their release names are the same exactly if one of their
names has more than 44 characters and the cut leaves both the same but for dashes at the end. If
not, nothing that is done to the one reaches the release of the other. If so, deleting the one
deletes the release of the other. -/
theorem share_release_iff (hspace : d.namespaceName = c.namespaceName) (hname : c.name ≠ d.name)
    (hc : Unnamed c) (hd : Unnamed d) :
    (c.releaseName = d.releaseName ↔
      (44 < c.name.toList.length ∨ 44 < d.name.toList.length) ∧
        SameButDashes c.cutName d.cutName) ∧
      (c.releaseName ≠ d.releaseName → ∀ (k : Controller) (w w' : World),
        (∀ deed r, (k.perform c deed).Ends troubled w r w' →
          w'.backend.history (releaseKey d d.releaseName) =
            w.backend.history (releaseKey d d.releaseName)) ∧
        (∀ r, (k.reconcile c).Ends troubled w r w' →
          w'.backend.history (releaseKey d d.releaseName) =
            w.backend.history (releaseKey d d.releaseName))) ∧
      (c.releaseName = d.releaseName → ∀ (k : Controller) (w w' : World), c.pause ≠ .paused →
        (k.delete c).Ends troubled w (.ok ()) w' →
          w'.backend.current? (releaseKey d d.releaseName) = none) := by
  refine ⟨⟨fun hsame => ⟨?_, (hc.releaseName_eq_iff hd).mp hsame⟩, fun hcut =>
    (hc.releaseName_eq_iff hd).mpr hcut.2⟩, fun hdiffer k w w' => ?_, fun hsame k w w' hpause h => ?_⟩
  · by_contra hshort
    obtain ⟨hcs, hds⟩ := not_or.mp hshort
    exact hname (hc.name_eq hd (Nat.le_of_not_lt hcs) (Nat.le_of_not_lt hds) hsame)
  · have hne : releaseKey c c.releaseName ≠ releaseKey d d.releaseName := by
      intro hkey
      exact hdiffer (congrArg ReleaseKey.name hkey)
    exact ⟨fun deed r h => history_of_perform hne h, fun r h => history_of_reconcile hne h⟩
  · rw [releaseKey_eq_of_namespaceName hspace, ← hsame]
    exact absent_of_delete hpause h

/-- A record with an identifier as the cluster gives them. -/
def identified (name uid : String) : Composition :=
  (Composition.of "composition/v1" "Web" name "apps").withUid uid

/-- A world in which one record was created and another is stored. -/
def besides (c d : Composition) : World :=
  let w := ((World.sample "" c).run none (Controller.sample.create c)).state
  { w with store := w.store.insert d }

theorem share_release_iff_short :
    let c := identified "shop" "3f2c9a1e-7b4d-4e21-9c0a-5d6e7f809a1b"
    let d := identified "cart" "9d0e4c77-1f2b-4a6c-8e35-2b7f60c41d92"
    c.releaseName ≠ d.releaseName ∧
      ((besides d c).run none (Controller.sample.delete c)).state.backend.history
        (releaseKey d d.releaseName) = (besides d c).backend.history (releaseKey d d.releaseName) := by
  intro c d
  have hc : Unnamed c := ⟨rfl, by decide +kernel, by decide +kernel⟩
  have hd : Unnamed d := ⟨rfl, by decide +kernel, by decide +kernel⟩
  obtain ⟨hiff, hapart, -⟩ := share_release_iff (c := c) (d := d) rfl (by decide) hc hd
  have hdiffer : c.releaseName ≠ d.releaseName := by
    intro hsame
    exact absurd (hiff.mp hsame).1 (by decide +kernel)
  have hrun := Program.ends_run (m := machine) (Controller.sample.delete c) (besides d c) 0
  exact ⟨hdiffer, (hapart hdiffer .sample _ _).1 .delete _ (troubled_of_answers hrun)⟩

/-- Two long names that start alike. -/
def east : Composition :=
  identified (String.ofList (List.replicate 53 'a') ++ "-east")
    "3f2c9a1e-7b4d-4e21-9c0a-5d6e7f809a1b"

def west : Composition :=
  identified (String.ofList (List.replicate 53 'a') ++ "-west")
    "9d0e4c77-1f2b-4a6c-8e35-2b7f60c41d92"

/-- **Derived release names can meet**, and then deleting the one record takes the release of the
other with it. -/
theorem share_release_east_west :
    west.namespaceName = east.namespaceName ∧ east.name ≠ west.name ∧ Unnamed east ∧
      Unnamed west ∧ east.uid.toList.take 8 ≠ west.uid.toList.take 8 ∧
      east.releaseName = west.releaseName ∧
      (besides east west).backend.current? (releaseKey east east.releaseName) ≠ none ∧
      ((besides east west).run none (Controller.sample.delete west)).state.backend.current?
        (releaseKey east east.releaseName) = none := by
  have heast : Unnamed east := ⟨rfl, by decide +kernel, by decide +kernel⟩
  have hwest : Unnamed west := ⟨rfl, by decide +kernel, by decide +kernel⟩
  have hpresent : (besides east west).backend.current? (releaseKey east east.releaseName) ≠ none := by
    decide +kernel
  have hgone : ((besides east west).run none (Controller.sample.delete west)).state.backend.current?
      (releaseKey east east.releaseName) = none := by decide +kernel
  exact ⟨rfl, by decide +kernel, heast, hwest, by decide +kernel, by decide +kernel, hpresent,
    hgone⟩

/-! ## Passes that end as a deletion -/

/-- Such a pass was a deletion that ended well. -/
theorem delete_of_deleted (h : (k.reconcile c).Ends troubled w (.ok .deleted) w') :
    (k.delete c).Ends troubled w (.ok ()) w' := by
  cases hdeleting : c.isDeleting with
  | true =>
      rw [reconcile_of_deleting hdeleting] at h
      obtain ⟨_, _, hdelete, -, rfl⟩ := Program.ends_bind_ok.mp h
      exact hdelete
  | false =>
      rw [reconcile_of_not_deleting hdeleting] at h
      obtain ⟨observation, _, -, hrest⟩ := Program.ends_bind_ok.mp h
      split at hrest
      · obtain ⟨_, _, -, houtcome, -⟩ := Program.ends_bind_ok.mp hrest
        exact nomatch houtcome
      · split at hrest
        · obtain ⟨_, _, -, houtcome, -⟩ := Program.ends_bind_ok.mp hrest
          exact nomatch houtcome
        · exact nomatch hrest.1

theorem same_of_delete_paused {x : Holding} {r : Except Fault Unit} (hpause : c.pause = .paused)
    (h : (k.delete c).Ends troubled w r w') : Same x w w' := by
  rw [delete_of_paused hpause] at h
  exact Leaves.same leaves_told h

/-- A paused record that is marked for deletion counts as deleted, whichever calls fail. -/
theorem deleted_of_paused {r : Except Fault Outcome} (hdeleting : c.isDeleting = true)
    (hpause : c.pause = .paused) (h : (k.reconcile c).Ends troubled w r w') :
    r = .ok .deleted := by
  rw [reconcile_of_deleting hdeleting, delete_of_paused hpause, Program.bind_assoc] at h
  obtain ⟨_, _, -, hr, -⟩ := (Task.sure_announce w _ _).ends_bind h
  exact hr

/-- **What it means that a record was deleted.** No release is left under its name, unless it is
paused: then everything is as it was. Marked for deletion, a paused record always counts as
deleted. -/
theorem absent_of_deleted_iff {r : Except Fault Outcome}
    (h : (k.reconcile c).Ends troubled w r w') :
    (r = .ok .deleted →
      (w'.backend.current? (releaseKey c c.releaseName) = none ↔
        c.pause ≠ .paused ∨ w.backend.current? (releaseKey c c.releaseName) = none) ∧
      (c.pause = .paused → ∀ x, Same x w w')) ∧
    (c.isDeleting = true → c.pause = .paused → r = .ok .deleted) := by
  refine ⟨?_, fun hdeleting hpause => deleted_of_paused hdeleting hpause h⟩
  rintro rfl
  replace h := delete_of_deleted h
  by_cases hpause : c.pause = .paused
  · have hsame (x : Holding) : Same x w w' := same_of_delete_paused hpause h
    refine ⟨?_, fun _ => hsame⟩
    rw [(hsame .releases).current?]
    constructor
    · exact Or.inr
    · intro habsent
      exact habsent.resolve_left (not_not_intro hpause)
  · have habsent := absent_of_delete hpause h
    exact ⟨⟨fun _ => Or.inl hpause, fun _ => habsent⟩, fun hpaused => absurd hpaused hpause⟩

/-- A record that is marked for deletion. -/
def doomed : Composition :=
  Composition.sample.withDeletion (some default)

/-- The same record, while it is paused. -/
def doomedPaused : Composition :=
  let asked := doomed.withAnnotation pauseAnnotation "true"
  asked.withAnnotation pauseTimeAnnotation "2026-01-01T00:00:00Z"

/-- A world in which a record is stored and has a release. -/
def released (c : Composition) : World :=
  (World.sample "" c).modifyBackend
    (·.seed (.deployed (releaseKey c c.releaseName) "web" "1.0.0" ""))

theorem absent_of_deleted_doomed :
    (released doomed).store.get? doomed.key = some doomed ∧
      ((released doomed).run none (Controller.sample.reconcile doomed)).result = .ok .deleted ∧
      ((released doomed).run none (Controller.sample.reconcile doomed)).state.backend.current?
        (releaseKey doomed doomed.releaseName) = none := by
  have hresult : ((released doomed).run none (Controller.sample.reconcile doomed)).result =
      .ok .deleted := Fault.eq_ok_of_toOption (by decide +kernel)
  have hends := troubled_of_answers (Program.ends_of_run_ok hresult)
  have hpause : doomed.pause ≠ .paused := by decide
  obtain ⟨hdeleted, -⟩ := absent_of_deleted_iff hends
  exact ⟨World.sample_stores "" doomed, hresult, (hdeleted rfl).1.mpr (Or.inl hpause)⟩

/-- **A paused record counts as deleted while its release is still there.** -/
theorem kept_of_deleted_paused :
    (released doomedPaused).store.get? doomedPaused.key = some doomedPaused ∧
      doomedPaused.isDeleting = true ∧
      ((released doomedPaused).run none (Controller.sample.reconcile doomedPaused)).result =
        .ok .deleted ∧
      ((released doomedPaused).run none
        (Controller.sample.reconcile doomedPaused)).state.backend.current?
          (releaseKey doomedPaused doomedPaused.releaseName) ≠ none := by
  have hresult : ((released doomedPaused).run none
      (Controller.sample.reconcile doomedPaused)).result = .ok .deleted :=
    Fault.eq_ok_of_toOption (by decide +kernel)
  exact ⟨World.sample_stores "" doomedPaused, by decide, hresult, by decide +kernel⟩

end Controller

end Chartkeeper
