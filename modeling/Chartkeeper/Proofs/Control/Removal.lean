import Chartkeeper.Proofs.Control.Permissions
import Chartkeeper.Proofs.Control.Steps
/-!
# What deleting leaves behind

Deleting first uninstalls the release of a record and then removes its permissions, and takes the
absence of a release to mean that there is nothing to do. So it never leaves a release, but it
leaves the permissions that were applied without a release: those of a creation that stopped
before it installed one, or of a deletion that stopped after it uninstalled one.
-/

namespace Chartkeeper

open World

/-! ## Histories of a record -/

/-- What makes the calls of a world fail. -/
structure Outages where
  resolver : Option String
  inspector : Option String
  backend : Assoc Operation String
  retains : Bool
  cluster : Option String
  store : Option String

/-- No call fails. -/
def Outages.calm : Outages := ⟨none, none, [], false, none, none⟩

/-- No release can be installed. -/
def Outages.uninstallable : Outages := { calm with backend := [(.install, "down")] }

/-- A world under other outages. -/
def World.under (w : World) (o : Outages) : World :=
  { w with
    resolverFailure := o.resolver
    inspectorFailure := o.inspector
    backend := { w.backend with failures := o.backend, retains := o.retains }
    cluster := { w.cluster with failure := o.cluster }
    store := { w.store with statusFailure := o.store } }

/-- The operations on a record. -/
inductive Deed where
  | observe
  | create
  | update
  | delete
  deriving DecidableEq, Repr

namespace Controller

variable {k : Controller} {w w' : World} {c : Composition} {key : String}

/-- Carries out an operation. -/
def perform (k : Controller) (c : Composition) : Deed → Task Unit
  | .observe => do let _ ← k.observe c
  | .create => k.create c
  | .update => update c
  | .delete => k.delete c

/-- The worlds that operations on one stored record lead to from one without releases and
permissions. Any call may fail, and outages come and go between the operations. -/
inductive Reached (k : Controller) (key : String) : World → Prop where
  | fresh {w : World} (releases : w.backend.histories = []) (permissions : w.cluster.objects = []) :
      Reached k key w
  | under {w : World} (o : Outages) (before : Reached k key w) : Reached k key (w.under o)
  | performed {w w' : World} {c : Composition} {r : Except Fault Unit} (deed : Deed)
      (before : Reached k key w) (stored : w.store.get? key = some c)
      (run : (k.perform c deed).Ends troubled w r w') : Reached k key w'

theorem Reached.proper (h : Reached k key w) : w.cluster.Proper := by
  induction h with
  | fresh releases permissions =>
      unfold Cluster.Proper
      rw [permissions]
      exact List.nodup_nil
  | under o before ih => exact ih
  | performed deed before stored run ih => exact proper_ends ih run

/-! ## Deleting -/

/-- The bundle that is made for a record when the inspector answers. -/
def bundleOf (k : Controller) (w : World) (c : Composition) (resource : ApiResource) : Bundle :=
  (owner c resource w.package).bundle k.account c.releaseName (.ofReport c.namespaceName w.report)

theorem eq_bundleOf {resource : ApiResource} {b : Bundle}
    (h : ((owner c resource w.package).generate k.account c.releaseName).Ends troubled w (.ok b)
      w') : b = k.bundleOf w c resource :=
  (Owner.generate_ok h).2

theorem bundleOf_congr (hw : w'.surroundings = w.surroundings) (resource : ApiResource) :
    k.bundleOf w' c resource = k.bundleOf w c resource := by
  unfold bundleOf
  rw [show w'.package = w.package from congrArg Surroundings.package hw,
    show w'.report = w.report from congrArg Surroundings.report hw]

/-- Removes the permissions of a record and tells that it is gone. -/
def dismantle (k : Controller) (c : Composition) (package : Package) : Task Unit := do
  let resource ← findResource c
  let bundle ← ((owner c resource package).generate k.account c.releaseName).during
    ("generating RBAC for composition " ++ c.key)
  bundle.uninstall.during "uninstalling rbac"
  announceDeleted c "Deleted composition: "
  let _ ← saveRecord c.removePauseTime.1

theorem leaves_dismantle {x : Holding} (hpermissions : x ≠ .permissions) (hrecords : x ≠ .records)
    (k : Controller) (c : Composition) (package : Package) :
    Leaves x (k.dismantle c package) := by
  refine Program.only_bind (leaves_findResource x c) fun resource => ?_
  refine Program.only_bind (Program.only_during (Owner.leaves_generate x _ _ _)) fun bundle => ?_
  refine Program.only_bind
    (Program.only_during (Bundle.leaves_uninstall hpermissions bundle)) fun _ => ?_
  refine Program.only_bind (Task.leaves_announce x _ _) fun _ => ?_
  exact Program.only_bind (leaves_saveRecord hrecords _) fun _ => Program.only_pure

theorem dismantle_ok (hproper : w.cluster.Proper)
    (h : (k.dismantle c w.package).Ends troubled w (.ok ()) w') :
    ∃ resource, ∀ r, w'.cluster.objects.get? r =
      if r ∈ (k.bundleOf w c resource).references then none else w.cluster.objects.get? r := by
  obtain ⟨resource, w₁, hresource, h₁⟩ := Program.ends_bind_ok.mp h
  obtain ⟨bundle, w₂, hgenerate, h₂⟩ := Program.ends_bind_ok.mp h₁
  obtain ⟨_, w₃, huninstall, h₃⟩ := Program.ends_bind_ok.mp h₂
  obtain ⟨_, w₄, hannounce, h₄⟩ := Program.ends_bind_ok.mp h₃
  obtain ⟨_, w₅, hsave, -, rfl⟩ := Program.ends_bind_ok.mp h₄
  replace hgenerate := Program.ends_during_ok.mp hgenerate
  have hw₁ := surroundings_ends hresource
  rw [show w.package = w₁.package from (congrArg Surroundings.package hw₁).symm] at hgenerate
  have hbefore : Same .permissions w w₂ :=
    ((leaves_findResource _ _).same hresource).trans
      ((Owner.leaves_generate _ _ _ _).same hgenerate)
  have hafter : Same .permissions w₃ w' :=
    ((Task.leaves_announce _ _ _).same hannounce).trans
      ((leaves_saveRecord (by decide) _).same hsave)
  refine ⟨resource, fun r => ?_⟩
  rw [show w'.cluster.objects = w₃.cluster.objects from hafter,
    Bundle.get?_of_uninstall (proper_ends (proper_ends hproper hresource) hgenerate)
      (Program.ends_during_ok.mp huninstall), eq_bundleOf hgenerate, bundleOf_congr hw₁,
    show w₂.cluster.objects = w.cluster.objects from hbefore]

/-- A deletion that ends well found no release and did nothing, or went on to the permissions from
a world in which the release was gone. -/
theorem delete_cases (hpause : c.pause ≠ .paused)
    (h : (k.delete c).Ends troubled w (.ok ()) w') :
    (w.backend.current? (releaseKey c c.releaseName) = none ∧ ∀ x, Same x w w') ∨
      ((w.backend.current? (releaseKey c c.releaseName)).isSome = true ∧
        ∃ w₁ : World, w₁.surroundings = w.surroundings ∧ Same .permissions w w₁ ∧
          w₁.backend.current? (releaseKey c c.releaseName) = none ∧
          (k.dismantle c w₁.package).Ends troubled w₁ (.ok ()) w') := by
  unfold delete at h
  rw [if_neg hpause] at h
  obtain ⟨package, w₁, hpackage, h₁⟩ := Program.ends_bind_ok.mp h
  obtain ⟨found, w₂, hfind, h₂⟩ := Program.ends_bind_ok.mp h₁
  have hbefore (x : Holding) : Same x w w₂ :=
    ((leaves_findPackage x _).same hpackage).trans ((leaves_findRelease x _ _).same hfind)
  have hfound := findRelease_ok hfind
  rw [((leaves_findPackage .releases _).same hpackage).current?] at hfound
  cases found with
  | none =>
      obtain ⟨_, w₃, hannounce, -, rfl⟩ := Program.ends_bind_ok.mp h₂
      exact Or.inl ⟨hfound.symm, fun x =>
        (hbefore x).trans ((Task.leaves_announce x _ _).same hannounce)⟩
  | some release =>
      obtain ⟨_, w₃, huninstall, h₃⟩ := Program.ends_bind_ok.mp h₂
      obtain ⟨left, w₄, hagain, h₄⟩ := Program.ends_bind_ok.mp h₃
      have hleft := findRelease_ok hagain
      replace huninstall := Program.ends_during_ok.mp huninstall
      cases left with
      | some _ => exact nomatch h₄.1
      | none =>
          have hw₄ : w₄.surroundings = w.surroundings := by
            rw [surroundings_ends hagain, surroundings_ends huninstall, surroundings_ends hfind,
              surroundings_ends hpackage]
          refine Or.inr ⟨by rw [← hfound]; rfl, w₄, hw₄, ?_, ?_, ?_⟩
          · exact (hbefore _).trans (((Task.leaves_uninstall (by decide) _ _).same huninstall).trans
              ((leaves_findRelease _ _ _).same hagain))
          · rw [((leaves_findRelease .releases _ _).same hagain).current?]
            exact hleft.symm
          · rw [show w₄.package = package from
              (congrArg Surroundings.package hw₄).trans (findPackage_ok hpackage).symm]
            exact h₄

/-- No release is left by a deletion that ends well. -/
theorem absent_of_delete (hpause : c.pause ≠ .paused)
    (h : (k.delete c).Ends troubled w (.ok ()) w') :
    w'.backend.current? (releaseKey c c.releaseName) = none := by
  rcases delete_cases hpause h with ⟨habsent, hsame⟩ | ⟨-, w₁, -, -, hgone, hdismantle⟩
  · rw [(hsame .releases).current?]
    exact habsent
  · rw [((leaves_dismantle (by decide) (by decide) _ _ _).same hdismantle).current?]
    exact hgone

/-- What a deletion that ends well did: without a release nothing, and with one it removed the
bundle. -/
theorem delete_ok (hproper : w.cluster.Proper) (hpause : c.pause ≠ .paused)
    (h : (k.delete c).Ends troubled w (.ok ()) w') :
    w'.backend.current? (releaseKey c c.releaseName) = none ∧
      ((w.backend.current? (releaseKey c c.releaseName) = none ∧ Same .permissions w w') ∨
      ((w.backend.current? (releaseKey c c.releaseName)).isSome = true ∧ ∃ resource, ∀ r,
        w'.cluster.objects.get? r =
          if r ∈ (k.bundleOf w c resource).references then none
          else w.cluster.objects.get? r)) := by
  refine ⟨absent_of_delete hpause h, ?_⟩
  rcases delete_cases hpause h with ⟨habsent, hsame⟩ | ⟨hpresent, w₁, hw₁, hkept, -, hdismantle⟩
  · exact Or.inl ⟨habsent, hsame .permissions⟩
  · -- Nothing has touched the permissions when their removal begins.
    have hproper₁ : w₁.cluster.Proper := by
      unfold Cluster.Proper
      rw [show w₁.cluster.objects = w.cluster.objects from hkept]
      exact hproper
    obtain ⟨resource, hobjects⟩ := dismantle_ok hproper₁ hdismantle
    refine Or.inr ⟨hpresent, resource, fun r => ?_⟩
    rw [hobjects, bundleOf_congr hw₁, show w₁.cluster.objects = w.cluster.objects from hkept]

/-- What a record's bundle reaches does not depend on the resource that serves its kind. -/
theorem mem_references_bundleOf {resource resource' : ApiResource} {r : Reference} :
    r ∈ (k.bundleOf w c resource).references ↔ r ∈ (k.bundleOf w c resource').references := by
  unfold bundleOf
  rw [Owner.mem_references_bundle, Owner.mem_references_bundle]
  exact Iff.rfl

/-- **What a deletion leaves behind.** No release is left, and the permissions are gone exactly
when there was a release to delete, or no permission was there before. -/
theorem removed_of_delete (hreached : Reached k key w) (hpause : c.pause ≠ .paused)
    (h : (k.delete c).Ends troubled w (.ok ()) w') (resource : ApiResource) :
    w'.backend.current? (releaseKey c c.releaseName) = none ∧
      ((∀ r ∈ (k.bundleOf w c resource).references, w'.cluster.objects.get? r = none) ↔
        (w.backend.current? (releaseKey c c.releaseName)).isSome = true ∨
          ∀ r ∈ (k.bundleOf w c resource).references, w.cluster.objects.get? r = none) := by
  obtain ⟨hnone, ⟨habsent, hsame⟩ | ⟨hpresent, served, hobjects⟩⟩ :=
    delete_ok hreached.proper hpause h
  · refine ⟨hnone, ?_⟩
    rw [habsent, show w'.cluster.objects = w.cluster.objects from hsame]
    exact ⟨Or.inr, fun h => h.resolve_left nofun⟩
  · refine ⟨hnone, fun _ => Or.inl hpresent, fun _ r hr => ?_⟩
    rw [hobjects, if_pos (mem_references_bundleOf.mp hr)]

/-- The world after a creation under some outages, when these are over. -/
def created (o : Outages) : World :=
  ((((World.sample "" .sample).under o).run none (Controller.sample.create .sample)).state).under
    .calm

/-- The record that is stored then. -/
def createdRecord (o : Outages) : Composition :=
  ((created o).store.get? Composition.sample.key).getD .sample

/-- The deletion of that record. -/
def deletion (o : Outages) : Run Port World Unit :=
  (created o).run none (Controller.sample.delete (createdRecord o))

theorem reached_created (o : Outages) : Reached .sample Composition.sample.key (created o) := by
  have hfresh : Reached .sample Composition.sample.key (World.sample "" .sample) :=
    .fresh rfl rfl
  have hstored := World.sample_stores "" .sample
  have hrun := Program.ends_run (m := machine) (Controller.sample.create .sample)
    ((World.sample "" .sample).under o) 0
  exact .under _ (.performed .create (.under o hfresh) hstored (troubled_of_answers hrun))

/-- After a creation that ended well, a deletion leaves nothing. -/
theorem removed_of_delete_calm :
    (deletion .calm).result = .ok () ∧
      ∀ r ∈ (Controller.sample.bundleOf (created .calm) (createdRecord .calm)
        ⟨"composition", "v1", "webs"⟩).references,
        (deletion .calm).state.cluster.objects.get? r = none := by
  have hpause : (createdRecord .calm).pause ≠ .paused := by decide +kernel
  have hresult : (deletion .calm).result = .ok () :=
    Fault.eq_ok_of_toOption (by decide +kernel)
  have hpresent : ((created .calm).backend.current? (releaseKey (createdRecord .calm)
      (createdRecord .calm).releaseName)).isSome = true := by decide +kernel
  -- The outages stay a variable while the theorem is applied, so that no run is evaluated then.
  have hgone (o : Outages) (hpause : (createdRecord o).pause ≠ .paused)
      (hresult : (deletion o).result = .ok ())
      (hpresent : ((created o).backend.current? (releaseKey (createdRecord o)
        (createdRecord o).releaseName)).isSome = true) :
      ∀ r ∈ (Controller.sample.bundleOf (created o) (createdRecord o)
        ⟨"composition", "v1", "webs"⟩).references,
        (deletion o).state.cluster.objects.get? r = none := by
    have hends := troubled_of_answers (Program.ends_of_run_ok hresult)
    exact (removed_of_delete (reached_created o) hpause hends _).2.mpr (Or.inl hpresent)
  exact ⟨hresult, hgone .calm hpause hresult hpresent⟩

/-- **Permissions can outlive a deletion.** A creation stopped between applying them and
installing the release, and the deletion after that finds nothing to do. -/
theorem kept_of_delete_uninstallable :
    Reached .sample Composition.sample.key (created .uninstallable) ∧
      (created .uninstallable).store.get? Composition.sample.key =
        some (createdRecord .uninstallable) ∧
      (createdRecord .uninstallable).pause ≠ .paused ∧
      (deletion .uninstallable).result = .ok () ∧
      ∃ r ∈ (Controller.sample.bundleOf (created .uninstallable) (createdRecord .uninstallable)
        ⟨"composition", "v1", "webs"⟩).references,
        (deletion .uninstallable).state.cluster.objects.get? r ≠ none := by
  have hfound : ((created .uninstallable).store.get? Composition.sample.key).isSome = true := by
    decide +kernel
  have hstored : (created .uninstallable).store.get? Composition.sample.key =
      some (createdRecord .uninstallable) := by
    obtain ⟨c, hc⟩ := Option.isSome_iff_exists.mp hfound
    unfold createdRecord
    rw [hc]
    rfl
  have hpause : (createdRecord .uninstallable).pause ≠ .paused := by decide +kernel
  have hresult : (deletion .uninstallable).result.toOption = some () := by decide +kernel
  have hmem : ⟨"ClusterRole", "apps-shop-definition", ""⟩ ∈
      (Controller.sample.bundleOf (created .uninstallable) (createdRecord .uninstallable)
        ⟨"composition", "v1", "webs"⟩).references := by decide +kernel
  have hkept : (deletion .uninstallable).state.cluster.objects.get?
      ⟨"ClusterRole", "apps-shop-definition", ""⟩ ≠ none := by decide +kernel
  exact ⟨reached_created .uninstallable, hstored, hpause, Fault.eq_ok_of_toOption hresult, _, hmem,
    hkept⟩

end Controller

end Chartkeeper
