import Chartkeeper.Proofs.Control.Records
import Chartkeeper.Proofs.Control.Removal
/-!
# Histories after which nothing is left

Permissions are without a release after a creation that stopped before it installed one, and after
a deletion that stopped before it removed them. A history without such stops is *orderly*, however
its other operations end. There the permissions of a record are in the cluster only together with
its release, so a deletion that ends well leaves neither.
-/

namespace Chartkeeper

open World Chartkeeper.Composition

/-! ## Records with one release -/

namespace Composition

/-- Two records that have their release and their permissions in common. -/
structure Kin (c d : Composition) : Prop where
  name : d.metadata.name = c.metadata.name
  namespaceName : d.metadata.namespaceName = c.metadata.namespaceName
  releaseName : d.releaseName = c.releaseName

variable {c d e : Composition}

theorem Kin.refl (c : Composition) : Kin c c := ⟨rfl, rfl, rfl⟩

theorem Kin.trans (h : Kin c d) (h' : Kin d e) : Kin c e :=
  ⟨h'.name.trans h.name, h'.namespaceName.trans h.namespaceName,
    h'.releaseName.trans h.releaseName⟩

theorem Kin.key (h : Kin c d) : d.key = c.key := by
  show d.metadata.namespaceName ++ "/" ++ d.metadata.name = _
  rw [h.namespaceName, h.name]
  rfl

theorem Alike.kin (h : Alike c d) : Kin c d := ⟨h.name, h.namespaceName, h.releaseName⟩

/-- Even the end of a pause leaves a record its release. -/
theorem lasting_kin (c : Composition) : Lasting c.key (Kin c) where
  key h := h.key
  status _ h := ⟨h.name, h.namespaceName, h.releaseName⟩
  merged _ h := ⟨h.name, h.namespaceName, h.releaseName⟩
  named h := h.trans (alike_setReleaseName _).kin
  resumed h := ⟨h.name, h.namespaceName, h.releaseName⟩
  defined d h := h.trans (alike_setDefinition _ d).kin

end Composition

namespace Controller

variable {α β : Type} {k : Controller} {w w' : World} {c d : Composition} {key name : String}

theorem releaseKey_eq_of_kin (h : Kin c d) (name : String) :
    releaseKey d name = releaseKey c name :=
  releaseKey_eq_of_namespaceName h.namespaceName name

theorem bundleOf_eq_of_kin (h : Kin c d) (resource : ApiResource) :
    k.bundleOf w d resource = k.bundleOf w c resource := by
  unfold bundleOf owner
  rw [show d.name = c.name from h.name, show d.namespaceName = c.namespaceName from h.namespaceName,
    h.releaseName]

theorem keeps_perform {P : Composition → Prop} (hP : Lasting key P)
    (hpaused : ∀ {c} t, P c → P (c.setPauseTime t)) (hc : P c) (deed : Deed) :
    Program.Keeps troubled (Holds P) (k.perform c deed) fun _ => True := by
  cases deed with
  | observe => exact Program.keeps_bind (keeps_observe hP hc) fun _ _ => Program.keeps_pure trivial
  | create => exact keeps_create hP hc
  | update => exact keeps_update hP.enduring (fun t _ => hpaused t) (hP.key hc)
  | delete => exact keeps_delete hP hc

/-! ## Operations that leave a release or change nothing -/

/-- Nothing was changed but records. -/
def Untouched (w w' : World) : Prop :=
  ∀ x, x ≠ Holding.records → Same x w w'

/-- There is a release of a record. -/
def Present (c : Composition) (w : World) : Prop :=
  (w.backend.current? (releaseKey c c.releaseName)).isSome = true

theorem not_present (h : w.backend.current? (releaseKey c c.releaseName) = none) :
    ¬Present c w := by
  unfold Present
  rw [h]
  exact nofun

/-- What comes first and changes nothing but records does not matter. -/
theorem present_or_untouched_of_bind {p : Task α} {f : α → Task β} {r : Except Fault β}
    (hp : ∀ x, x ≠ Holding.records → Leaves x p)
    (hf : ∀ a mid, p.Ends troubled w (.ok a) mid → (f a).Ends troubled mid r w' →
      Present c w' ∨ Untouched mid w') (h : (p >>= f).Ends troubled w r w') :
    Present c w' ∨ Untouched w w' := by
  rcases Program.ends_bind.mp h with ⟨fault, hstop, -⟩ | ⟨a, mid, hfirst, hrest⟩
  · exact Or.inr fun x hx => (hp x hx).same hstop
  · exact (hf a mid hfirst hrest).imp_right fun hlater x hx =>
      ((hp x hx).same hfirst).trans (hlater x hx)

/-- A task after which every release is still there. -/
def Spares (p : Task α) : Prop :=
  p.Only fun call : Port.Call => ∀ w : World, w.backend.Stay (w.effect call).2.backend

theorem spares_of_leaves {p : Task α} (hp : Leaves .releases p) : Spares p :=
  hp.mono fun _ hcall w => Backend.stay_of_histories (same_effect hcall w)

theorem Spares.stay {p : Task α} {r : Except Fault α} (hp : Spares p)
    (h : p.Ends troubled w r w') : w.backend.Stay w'.backend :=
  Program.Only.ends (R := fun s t : World => s.backend.Stay t.backend) hp
    (fun _ _ hkey => hkey) (fun _ _ _ hst htu key hkey => htu key (hst key hkey))
    (related_of_effect (fun _ _ hkey => hkey) fun s _ hcall => hcall s) h

theorem spares_recover (k : Controller) (key : ReleaseKey) (release : Release) :
    Spares (k.recover key release) := by
  unfold recover
  split
  · exact Program.only_during (Program.only_ask fun w => Backend.stay_rollback _ _ _)
  · exact Program.only_pure

theorem spares_renew (k : Controller) (c : Composition) (name : String) (package : Package)
    (before : Release) : Spares (k.renew c name package before) := by
  have hnoting {α : Type} (fault : Fault) :
      Spares (failNoted c "Observe" fault : Task α) :=
    spares_of_leaves (leaves_failNoted (by decide) _ fault)
  refine Program.only_bind (spares_of_leaves (leaves_findResource _ c)) fun resource => ?_
  refine Program.only_bind (only_noted (spares_of_leaves
    (leaves_installPermissions (by decide) k c name resource package)) hnoting) fun _ => ?_
  refine Program.only_bind Program.only_lift fun action => ?_
  refine Program.only_bind (only_noted (Program.only_during
    (Program.only_ask fun w => Backend.stay_upgrade _ _ _ _ _)) hnoting) fun after => ?_
  exact spares_of_leaves (leaves_observeUpgraded (by decide) _ _ _ _)

theorem observeNamed_orderly {r : Except Fault Observation} (hw : Holds (Kin c) w) (hd : Kin c d)
    (h : (k.observeNamed c.releaseName d).Ends troubled w r w') :
    Present c w' ∨ Untouched w w' := by
  refine present_or_untouched_of_bind (fun x _ => leaves_findPackage x d) ?_ h
  intro package w₁ hpackage h₁
  have hw₁ := (keeps_of_leaves (leaves_findPackage _ d) hw hpackage).1
  have hdefined := (lasting_kin c).defined package.definition hd
  refine present_or_untouched_of_bind (fun x hx => leaves_saveIf hx _ _) ?_ h₁
  intro record w₂ hsave h₂
  have hrecord := (keeps_saveIf (lasting_kin c).enduring hdefined _ hw₁ hsave).2 record rfl
  refine present_or_untouched_of_bind (fun x _ => leaves_findRelease x record _) ?_ h₂
  intro found w₃ hfind h₃
  have hfound := findRelease_ok hfind
  cases found with
  | none =>
      obtain ⟨-, rfl⟩ := h₃
      exact Or.inr fun x _ => same_refl x w'
  | some release =>
      -- What was found stays found: from here on no call uninstalls.
      have hspares : Spares (k.observeFound record c.releaseName package (some release)) :=
        Program.only_bind (spares_recover k _ release) fun before =>
          spares_renew k record c.releaseName package before
      refine Or.inl (hspares.stay h₃ _ ?_)
      rw [((leaves_findRelease .releases _ _).same hfind).current?,
        ← releaseKey_eq_of_kin hrecord, ← hfound]
      rfl

/-- However observing ends, it leaves a release or changes nothing but records. -/
theorem observe_orderly {r : Except Fault Observation} (hw : Holds (Kin c) w)
    (h : (k.observe c).Ends troubled w r w') : Present c w' ∨ Untouched w w' := by
  by_cases hpause : c.pause = .paused
  · rw [observe_of_paused hpause] at h
    refine Or.inr fun x _ => Leaves.same ?_ h
    exact leaves_told
  · rw [observe_of_not_paused hpause] at h
    have hresumed : Kin c (c.setReleaseName c.releaseName).1.removePauseTime.1 :=
      (lasting_kin c).resumed ((lasting_kin c).named (Kin.refl c))
    refine present_or_untouched_of_bind (fun x hx => leaves_saveIf hx _ _) ?_ h
    intro record w₁ hsave h₁
    obtain ⟨hw₁, hrecord⟩ := keeps_saveIf (lasting_kin c).enduring hresumed _ hw hsave
    exact observeNamed_orderly hw₁ (hrecord record rfl) h₁

/-! ## Orderly histories -/

/-- The worlds that operations on one stored record lead to, from one without releases and
permissions, when a creation or deletion that stops leaves a release or changes nothing but
records. Observing and updating may stop anywhere. -/
inductive Orderly (k : Controller) (key : String) : World → Prop where
  | fresh {w : World} (releases : w.backend.histories = []) (permissions : w.cluster.objects = []) :
      Orderly k key w
  | under {w : World} (o : Outages) (before : Orderly k key w) : Orderly k key (w.under o)
  | performed {w w' : World} {c : Composition} {r : Except Fault Unit} (deed : Deed)
      (before : Orderly k key w) (stored : w.Stores c) (own : c.key = key)
      (run : (k.perform c deed).Ends troubled w r w')
      (orderly : deed = .create ∨ deed = .delete →
        r = .ok () ∨ Present c w' ∨ Untouched w w') : Orderly k key w'

theorem Orderly.reached (h : Orderly k key w) : Reached k key w := by
  induction h with
  | fresh releases permissions => exact .fresh releases permissions
  | under o before ih => exact .under o ih
  | performed deed before stored own run orderly ih => exact .performed deed ih (own ▸ stored) run

/-- The permissions of a record are there only together with its release. -/
def Tidy (k : Controller) (c : Composition) (w : World) : Prop :=
  Present c w ∨
    ∀ resource, ∀ r ∈ (k.bundleOf w c resource).references, w.cluster.objects.get? r = none

theorem Tidy.kin (h : Tidy k c w) (hkin : Kin c d) : Tidy k d w := by
  unfold Tidy Present at h ⊢
  rw [hkin.releaseName, releaseKey_eq_of_kin hkin]
  simp only [bundleOf_eq_of_kin hkin]
  exact h

theorem Tidy.untouched (h : Tidy k c w) (hw : w'.surroundings = w.surroundings)
    (huntouched : Untouched w w') : Tidy k c w' := by
  refine h.imp (fun hpresent => ?_) fun hgone resource r hr => ?_
  · unfold Present
    rw [(huntouched .releases (by decide)).current?]
    exact hpresent
  · rw [bundleOf_congr hw] at hr
    rw [show w'.cluster.objects = w.cluster.objects from huntouched .permissions (by decide)]
    exact hgone resource r hr

/-- A creation that ends well leaves a release, unless the record is paused. -/
theorem create_orderly (hc : w.Stores c) (h : (k.create c).Ends troubled w (.ok ()) w') :
    Present c w' ∨ Untouched w w' := by
  by_cases hpause : c.pause = .paused
  · rw [create_of_paused hpause] at h
    refine Or.inr fun x _ => Leaves.same ?_ h
    exact leaves_told
  · obtain ⟨release, _, _, _, _, -, -, hcurrent, -⟩ :=
      create_ok hc (Alike.refl c) rfl hpause h
    refine Or.inl ?_
    unfold Present
    rw [hcurrent]
    rfl

theorem tidy_of_delete (hproper : w.cluster.Proper) (htidy : Tidy k c w)
    (h : (k.delete c).Ends troubled w (.ok ()) w') : Tidy k c w' := by
  have hw := surroundings_ends h
  by_cases hpause : c.pause = .paused
  · refine htidy.untouched hw fun x _ => Leaves.same (p := k.delete c) ?_ h
    rw [delete_of_paused hpause]
    exact leaves_told
  · obtain ⟨-, ⟨habsent, hsame⟩ | ⟨-, served, hobjects⟩⟩ := delete_ok hproper hpause h
    · -- Without a release, nothing was there to begin with.
      have hgone := htidy.resolve_left (not_present habsent)
      refine Or.inr fun resource r hr => ?_
      rw [bundleOf_congr hw] at hr
      rw [show w'.cluster.objects = w.cluster.objects from hsame]
      exact hgone resource r hr
    · refine Or.inr fun resource r hr => ?_
      rw [bundleOf_congr hw] at hr
      rw [hobjects, if_pos (mem_references_bundleOf.mp hr)]

/-- An operation keeps a record tidy if it is one of those that may stop anywhere, or ends well,
or leaves a release or changes nothing but records. -/
theorem tidy_of_perform {r : Except Fault Unit} (hproper : w.cluster.Proper) (hc : w.Stores c)
    (htidy : Tidy k c w) (deed : Deed) (h : (k.perform c deed).Ends troubled w r w')
    (horderly : deed = .create ∨ deed = .delete →
      r = .ok () ∨ Present c w' ∨ Untouched w w') : Tidy k c w' := by
  have hkept (hdone : Present c w' ∨ Untouched w w') : Tidy k c w' :=
    hdone.elim Or.inl (htidy.untouched (surroundings_ends h))
  cases deed with
  | observe =>
      have hstored : Holds (Kin c) w := ⟨c, hc, Kin.refl c⟩
      rcases Program.ends_bind.mp h with ⟨_, hobserve, -⟩ | ⟨_, _, hobserve, -, rfl⟩
      · exact hkept (observe_orderly hstored hobserve)
      · exact hkept (observe_orderly hstored hobserve)
  | update => exact hkept (Or.inr fun x hx => (leaves_update hx c).same h)
  | create =>
      rcases horderly (Or.inl rfl) with rfl | hdone
      · exact hkept (create_orderly hc h)
      · exact hkept hdone
  | delete =>
      rcases horderly (Or.inr rfl) with rfl | hdone
      · exact tidy_of_delete hproper htidy h
      · exact hkept hdone

/-- **After an orderly history, the stored record is tidy.** -/
theorem Orderly.tidy (h : Orderly k key w) (hc : w.Stores c) (hkey : c.key = key) :
    Tidy k c w := by
  induction h generalizing c with
  | fresh releases permissions =>
      refine Or.inr fun _ _ _ => ?_
      rw [permissions]
      rfl
  | under o before ih => exact ih hc hkey
  | performed deed before stored own run orderly ih =>
      rename_i w₀ w₁ c₀ r
      have hkeeps := keeps_perform (k := k) (lasting_kin c₀)
        (fun _ h => ⟨h.name, h.namespaceName, h.releaseName⟩) (Kin.refl c₀) deed
      -- The record that is stored now has the release of the one that was stored before.
      obtain ⟨d, hd, hkin⟩ := (hkeeps ⟨c₀, stored, Kin.refl c₀⟩ run).1
      have hsame : d.key = c.key := by rw [hkin.key, own, hkey]
      unfold Stores at hd hc
      rw [hsame, hc] at hd
      obtain rfl := Option.some.inj hd
      exact (tidy_of_perform before.reached.proper stored (ih stored own) deed run orderly).kin hkin

/-- **After an orderly history, a deletion that ends well leaves nothing.** -/
theorem removed_of_orderly (h : Orderly k c.key w) (hc : w.Stores c) (hpause : c.pause ≠ .paused)
    (hdelete : (k.delete c).Ends troubled w (.ok ()) w') (resource : ApiResource) :
    w'.backend.current? (releaseKey c c.releaseName) = none ∧
      ∀ r ∈ (k.bundleOf w c resource).references, w'.cluster.objects.get? r = none := by
  have hnone := (delete_ok h.reached.proper hpause hdelete).1
  refine ⟨hnone, ?_⟩
  have hgone := (tidy_of_delete h.reached.proper (h.tidy hc rfl) hdelete).resolve_left
    (not_present hnone)
  rw [← bundleOf_congr (surroundings_ends hdelete)]
  exact hgone resource

theorem orderly_created {o : Outages}
    (h : (((World.sample "" .sample).under o).run none
      (Controller.sample.create .sample)).result = .ok ()) :
    Orderly .sample Composition.sample.key (created o) := by
  have hfresh : Orderly .sample Composition.sample.key (World.sample "" .sample) :=
    .fresh rfl rfl
  have hstored := World.sample_stores "" .sample
  have hrun := Program.ends_run (m := machine) (Controller.sample.create .sample)
    ((World.sample "" .sample).under o) 0
  exact .under _ (.performed .create (.under o hfresh) hstored rfl (troubled_of_answers hrun)
    fun _ => Or.inl h)

example : Orderly .sample Composition.sample.key (created .calm) :=
  orderly_created (Fault.eq_ok_of_toOption (by decide +kernel))

end Controller

end Chartkeeper
