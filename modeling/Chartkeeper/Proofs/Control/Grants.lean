import Chartkeeper.Proofs.Control.Changes
import Chartkeeper.Proofs.Control.Removal
/-!
# Which permissions a record is granted

Observing and creating apply the same objects, in the same order, before they touch the release.
Which objects these are depends on what surrounds the controller and on the record, and not on what
the cluster holds; where they cannot be put together, there are none. Wherever an operation stops,
the first of them were applied.
-/

namespace Chartkeeper.Controller

open World Chartkeeper.Composition

variable {k : Controller} {w w' : World} {c d : Composition} {resource : ApiResource}
  {package : Package}

/-- The objects that are applied for a record, in order. -/
def granted (k : Controller) (w : World) (c : Composition) : List PermissionObject :=
  match w.mapper.resource c.apiKind with
  | .error _ => []
  | .ok resource =>
    match (owner c resource w.package).check k.account c.releaseName with
    | .error _ => []
    | .ok _ => (k.bundleOf w c resource).applyOrder

theorem granted_of_unserved {fault : Fault} (h : w.mapper.resource c.apiKind = .error fault) :
    k.granted w c = [] := by
  unfold granted
  rw [h]

theorem granted_of_unchecked {fault : Fault} (hresource : w.mapper.resource c.apiKind = .ok resource)
    (h : (owner c resource w.package).check k.account c.releaseName = .error fault) :
    k.granted w c = [] := by
  unfold granted
  simp only [hresource, h]

theorem granted_of_checked (hresource : w.mapper.resource c.apiKind = .ok resource)
    (h : (owner c resource w.package).check k.account c.releaseName = .ok ()) :
    k.granted w c = (k.bundleOf w c resource).applyOrder := by
  unfold granted
  simp only [hresource, h]

theorem granted_congr (hw : w'.surroundings = w.surroundings) (h : Alike c d) :
    k.granted w' d = k.granted w c := by
  have hbundle (resource : ApiResource) : k.bundleOf w' d resource = k.bundleOf w c resource := by
    rw [bundleOf_congr hw]
    unfold bundleOf
    rw [owner_eq_of_alike h, h.releaseName, show d.namespaceName = c.namespaceName from
      h.namespaceName]
  unfold granted
  rw [show w'.mapper = w.mapper from congrArg Surroundings.mapper hw,
    show w'.package = w.package from congrArg Surroundings.package hw, apiKind_eq_of_alike h]
  simp only [owner_eq_of_alike h, h.releaseName, hbundle]

/-- The first objects that a record is granted were applied, and all of them if nothing failed. -/
def Granting (k : Controller) (c : Composition) (w w' : World) (finished : Prop) : Prop :=
  ∃ applied, applied <+: k.granted w c ∧
    w'.cluster.objects = Cluster.grant applied w.cluster.objects ∧
    (finished → applied = k.granted w c)

theorem Granting.of_same {finished : Prop} (h : Same .permissions w w') (hnot : ¬finished) :
    Granting k c w w' finished :=
  ⟨[], List.nil_prefix, h, fun hfinished => absurd hfinished hnot⟩

/-- What comes before and after does not matter as long as it leaves the permissions alone. -/
theorem Granting.between {w₁ w₂ : World} {finished : Prop} (h : Granting k c w₁ w₂ finished)
    (hw : w₁.surroundings = w.surroundings) (hbefore : Same .permissions w w₁)
    (hafter : Same .permissions w₂ w') : Granting k c w w' finished := by
  obtain ⟨applied, hprefix, hobjects, hall⟩ := h
  rw [granted_congr hw (Alike.refl c)] at hprefix hall
  refine ⟨applied, hprefix, ?_, hall⟩
  rw [show w'.cluster.objects = w₂.cluster.objects from hafter, hobjects,
    show w₁.cluster.objects = w.cluster.objects from hbefore]

theorem Granting.all {finished : Prop} (h : Granting k c w w' finished)
    (hall : finished ∨ k.granted w c = []) :
    w'.cluster.objects = Cluster.grant (k.granted w c) w.cluster.objects := by
  obtain ⟨applied, hprefix, hobjects, hfinished⟩ := h
  rw [hobjects]
  rcases hall with hdone | hnone
  · rw [hfinished hdone]
  · rw [hnone] at hprefix ⊢
    rw [List.prefix_nil.mp hprefix]

theorem granting_installPermissions {result : Except Fault Unit}
    (hresource : w.mapper.resource c.apiKind = .ok resource)
    (h : (k.installPermissions c c.releaseName resource w.package).Ends troubled w result w') :
    Granting k c w w' (result = .ok ()) := by
  have hleaves := Owner.leaves_generate .permissions (owner c resource w.package) k.account
    c.releaseName
  rcases Program.ends_bind.mp h with ⟨fault, hgenerate, rfl⟩ | ⟨bundle, w₁, hgenerate, h₁⟩
  · exact Granting.of_same (Leaves.same (Program.only_during hleaves) hgenerate) nofun
  · have hbefore : Same .permissions w w₁ := Leaves.same (Program.only_during hleaves) hgenerate
    replace hgenerate := Program.ends_during_ok.mp hgenerate
    obtain ⟨r₀, hinstall, rfl⟩ := Program.ends_during.mp h₁
    obtain ⟨applied, hprefix, hobjects, hall⟩ := Bundle.granted_of_install hinstall
    have hgranted : k.granted w c = bundle.applyOrder := by
      rw [eq_bundleOf hgenerate]
      exact granted_of_checked hresource (Owner.generate_ok hgenerate).1
    rw [← hgranted] at hprefix hall
    refine ⟨applied, hprefix, ?_, fun hr => ?_⟩
    · rw [hobjects, show w₁.cluster.objects = w.cluster.objects from hbefore]
    · cases r₀ with
      | ok _ => exact hall rfl
      | error _ => exact nomatch hr

/-- Makes the release of a record whose permissions are applied. -/
def deploy (k : Controller) (name : String) (record : Composition) (package : Package)
    (resource : ApiResource) : Task Release := do
  let action ← k.action record package resource
  let existing ← findRelease record name
  k.installOrUpgrade (releaseKey record name) package action existing

theorem leaves_deploy {x : Holding} (hx : x ≠ .releases) (k : Controller) (name : String)
    (c : Composition) (package : Package) (resource : ApiResource) :
    Leaves x (k.deploy name c package resource) := by
  refine Program.only_bind Program.only_lift fun action => ?_
  refine Program.only_bind (leaves_findRelease x c name) fun existing => ?_
  exact leaves_installOrUpgrade hx k _ package action existing

/-- **Making a release** applies the permissions first, and does not go on before all are. -/
theorem granting_make {result : Except Fault Release}
    (h : (k.make c.releaseName c w.package).Ends troubled w result w') :
    Granting k c w w' (∃ r, result = .ok r) := by
  rcases Program.ends_bind.mp h with ⟨fault, hresource, rfl⟩ | ⟨resource, w₁, hresource, h₁⟩
  · exact Granting.of_same ((leaves_findResource _ _).same hresource) nofun
  · have hw₁ := surroundings_ends hresource
    have hbefore := (leaves_findResource .permissions _).same hresource
    rw [show w.package = w₁.package from (congrArg Surroundings.package hw₁).symm] at h₁
    have hserved : w₁.mapper.resource c.apiKind = .ok resource := by
      rw [show w₁.mapper = w.mapper from congrArg Surroundings.mapper hw₁]
      exact findResource_ok hresource
    rcases Program.ends_bind.mp h₁ with ⟨fault, hpermissions, rfl⟩ | ⟨_, w₂, hpermissions, h₂⟩
    · obtain ⟨r₀, hinstall, hr⟩ := Program.ends_during.mp hpermissions
      obtain ⟨applied, hprefix, hobjects, -⟩ :=
        (granting_installPermissions hserved hinstall).between hw₁ hbefore (same_refl _ w')
      exact ⟨applied, hprefix, hobjects, nofun⟩
    · have hafter : Same .permissions w₂ w' :=
        (leaves_deploy (by decide) k c.releaseName c w₁.package resource).same h₂
      obtain ⟨applied, hprefix, hobjects, hall⟩ := (granting_installPermissions hserved
        (Program.ends_during_ok.mp hpermissions)).between hw₁ hbefore hafter
      exact ⟨applied, hprefix, hobjects, fun _ => hall rfl⟩

theorem granting_renew {before : Release} {o : Observation}
    (h : (k.renew c c.releaseName w.package before).Ends troubled w (.ok o) w') :
    w'.cluster.objects = Cluster.grant (k.granted w c) w.cluster.objects := by
  obtain ⟨resource, w₁, hresource, h₁⟩ := Program.ends_bind_ok.mp h
  obtain ⟨_, _, hpermissions, h₂⟩ := Program.ends_bind_ok.mp h₁
  obtain ⟨action, w₂, ⟨-, rfl⟩, h₃⟩ := Program.ends_bind_ok.mp h₂
  obtain ⟨after, w₃, hupgrade, h₄⟩ := Program.ends_bind_ok.mp h₃
  have hw₁ := surroundings_ends hresource
  have hserved : w₁.mapper.resource c.apiKind = .ok resource := by
    rw [show w₁.mapper = w.mapper from congrArg Surroundings.mapper hw₁]
    exact findResource_ok hresource
  have hbefore := (leaves_findResource .permissions _).same hresource
  have hafter : Same .permissions w₂ w' :=
    ((Task.leaves_upgrade (by decide) _ _ _ _).same
      (Program.ends_during_ok.mp (noted_ok hupgrade))).trans
      ((leaves_observeUpgraded (by decide) _ _ _ _).same h₄)
  replace hpermissions := noted_ok hpermissions
  rw [show w.package = w₁.package from (congrArg Surroundings.package hw₁).symm] at hpermissions
  exact ((granting_installPermissions hserved hpermissions).between hw₁ hbefore hafter).all
    (Or.inl rfl)

/-- **Observing a release** that is there applies all permissions of its record. -/
theorem granted_of_observe {o : Observation} (hc : w.Stores c) (hpause : c.pause ≠ .paused)
    (h : (k.observe c).Ends troubled w (.ok o) w') (hfound : o.found = true) :
    w'.cluster.objects = Cluster.grant (k.granted w c) w.cluster.objects := by
  rw [observe_of_mark hpause] at h
  have halike := alike_marked hpause w.package.definition
  obtain ⟨⟨record, package⟩, w₁, hmark, h₁⟩ := Program.ends_bind_ok.mp h
  obtain ⟨found, w₂, hfind, h₂⟩ := Program.ends_bind_ok.mp h₁
  obtain ⟨rfl, rfl, -⟩ := mark_ok hc hpause hmark
  have hbefore : Same .permissions w w₂ :=
    ((leaves_mark (by decide) c).same hmark).trans ((leaves_findRelease _ _ _).same hfind)
  cases found with
  | none =>
      obtain ⟨ho, -⟩ := h₂
      rw [Except.ok.inj ho] at hfound
      exact nomatch hfound
  | some release =>
      obtain ⟨before, w₃, hrecover, hrenew⟩ := Program.ends_bind_ok.mp h₂
      have hw₃ : w₃.surroundings = w.surroundings := by
        rw [surroundings_ends hrecover, surroundings_ends hfind, surroundings_ends hmark]
      have hsame : Same .permissions w w₃ :=
        hbefore.trans ((leaves_recover (by decide) k _ release).same hrecover)
      dsimp only at hrenew
      rw [← halike.releaseName,
        show w.package = w₃.package from (congrArg Surroundings.package hw₃).symm] at hrenew
      rw [granting_renew hrenew, show w₃.package = w.package from congrArg Surroundings.package hw₃,
        granted_congr hw₃ halike, show w₃.cluster.objects = w.cluster.objects from hsame]

end Chartkeeper.Controller
