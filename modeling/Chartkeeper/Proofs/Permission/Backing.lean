import Mathlib.Data.List.Nodup
import Chartkeeper.Proofs.Control.Traces
import Chartkeeper.Proofs.Permission.Overlap
/-!
# Bindings have their roles

Each binding of a bundle gives a role of the same bundle, in its own scope. Applying a bundle starts
with the roles and takes none away, and removing it starts with the bindings. So at no point of
either is there a binding without the role that it gives, if there was none before, and wherever a
call fails.

- `Bundle.Fate`: what has become of a binding at some point of a run. `fate_of_install` and
  `fate_of_uninstall` say that there is nothing else.
- `backed_of_run`: hence no binding is left without its role, whether it is judged by the role that
  the bundle has it give, or by the one that the object in the cluster gives.
-/

namespace Chartkeeper

open World

/-! ## Roles that are given -/

/-- A reference to a role. -/
def Reference.IsRole (r : Reference) : Prop :=
  r.kind = "Role" ∨ r.kind = "ClusterRole"

instance (r : Reference) : Decidable r.IsRole :=
  inferInstanceAs (Decidable (_ ∨ _))

namespace PermissionObject

/-- What the role is found by that a binding gives. -/
def given? : PermissionObject → Option Reference
  | .roleBinding _ namespaceName link _ => some ⟨link.kind, link.name, namespaceName⟩
  | .clusterRoleBinding _ link _ => some ⟨link.kind, link.name, ""⟩
  | .role .. | .clusterRole .. => none

variable {o : PermissionObject}

/-- References tell roles and bindings apart. -/
theorem isRole_reference_iff : o.reference.IsRole ↔ o.isBinding = false := by
  cases o <;> simp [Reference.IsRole, reference, kind, isBinding]

end PermissionObject

/-- A role's binding gives that role, in the scope of the role. -/
theorem Owner.given?_bindingOf {account : ServiceAccount} {role : PermissionObject}
    (h : role.isBinding = false) : (bindingOf account role).given? = some role.reference := by
  cases role with
  | role | clusterRole => rfl
  | roleBinding | clusterRoleBinding => exact nomatch h

namespace Bundle

variable {b : Bundle} {o : PermissionObject} {w w' : World} {result : Except Fault Unit}
  {before after : Assoc Reference PermissionObject}

/-- Each binding of a bundle that was made gives a role of the same bundle. -/
theorem role_of_made {owner : Owner} {account : ServiceAccount} {base : String} {needs : Needs}
    (ho : o ∈ (owner.bundle account base needs).bindings) :
    ∃ role ∈ (owner.bundle account base needs).roles, o.given? = some role.reference := by
  rw [Owner.bindings_bundle] at ho
  rw [Owner.roles_bundle]
  obtain ⟨role, hrole, rfl⟩ := List.mem_map.mp ho
  exact ⟨role, hrole, Owner.given?_bindingOf (Owner.isBinding_of_mem_roles hrole)⟩

/-! ## What becomes of a binding -/

/-- What has become of a binding of a bundle: it is gone, or there as it was made, with its role, or
what was there is still there, and no role is gone. -/
inductive Fate (b : Bundle) (before after : Assoc Reference PermissionObject)
    (o : PermissionObject) : Prop
  | gone (none : after.get? o.reference = none)
  | made (there : after.get? o.reference = some o)
      (role : ∃ role ∈ b.roles, o.given? = some role.reference ∧
        after.get? role.reference = some role)
  | kept (same : after.get? o.reference = before.get? o.reference)
      (roles : ∀ q : Reference, q.IsRole → before.get? q ≠ none → after.get? q ≠ none)

/-- Roles come first: a binding is applied after all of them. -/
theorem fate_of_install (hapart : b.references.Nodup)
    (hroles : ∀ o ∈ b.bindings, ∃ role ∈ b.roles, o.given? = some role.reference)
    (h : b.install.Ends troubled w result w') (ho : o ∈ b.bindings) :
    b.Fate w.cluster.objects w'.cluster.objects o := by
  obtain ⟨applied, hstart, hobjects, -⟩ := granted_of_install h
  have hbinding := isBinding_of_mem_bindings ho
  have hwhole := nodup_references_applyOrder hapart
  have hget {x : PermissionObject} (hx : x ∈ applied) :
      w'.cluster.objects.get? x.reference = some x := by
    rw [hobjects]
    exact Cluster.get?_grant_of_mem (hwhole.sublist (hstart.map _).sublist) hx
  by_cases hdone : o ∈ applied
  · have hbefore : b.roles <+: applied := by
      rcases List.prefix_or_prefix_of_prefix (List.prefix_append b.roles b.bindings) hstart with
        hroles | hearly
      · exact hroles
      · have hrole := not_isBinding_of_mem_roles (hearly.subset hdone)
        rw [hbinding] at hrole
        exact nomatch hrole
    obtain ⟨role, hrole, hgiven⟩ := hroles o ho
    exact .made (hget hdone) ⟨role, hrole, hgiven, hget (hbefore.subset hrole)⟩
  · rw [hobjects]
    refine .kept (Cluster.get?_grant_of_not_mem fun hmem => hdone ?_) fun _ _ =>
      Cluster.get?_grant_ne_none
    obtain ⟨x, hx, hreference⟩ := List.mem_map.mp hmem
    have hmemo : o ∈ b.applyOrder := List.mem_append_right _ ho
    rwa [← List.inj_on_of_nodup_map hwhole (hstart.subset hx) hmemo hreference]

/-- Bindings come first: as long as one of them is there, no role was deleted. -/
theorem fate_of_uninstall (hproper : w.cluster.Proper)
    (h : b.uninstall.Ends troubled w result w') (ho : o ∈ b.bindings) :
    b.Fate w.cluster.objects w'.cluster.objects o := by
  obtain ⟨removed, hstart, hobjects, -⟩ := revoked_of_uninstall h
  by_cases hdone : o.reference ∈ removed.map PermissionObject.reference
  · refine .gone ?_
    rw [hobjects]
    exact Assoc.get?_eraseAll_of_mem hdone hproper
  · have hearly : removed <+: b.bindings := by
      rcases List.prefix_or_prefix_of_prefix (List.prefix_append b.bindings b.roles) hstart with
        hall | hearly
      · exact absurd (List.mem_map_of_mem (hall.subset ho)) hdone
      · exact hearly
    refine .kept ?_ fun q hq hthere => ?_
    · rw [hobjects]
      exact Assoc.get?_eraseAll_of_not_mem hdone
    · rw [hobjects]
      rwa [Cluster.revoke, Assoc.get?_eraseAll_of_not_mem]
      intro hmem
      obtain ⟨x, hx, rfl⟩ := List.mem_map.mp hmem
      have hnot := PermissionObject.isRole_reference_iff.mp hq
      rw [isBinding_of_mem_bindings (hearly.subset hx)] at hnot
      exact Bool.false_ne_true hnot.symm

/-! ## Bindings with their roles -/

/-- The role that a binding gives is in a cluster. -/
def Backs (objects : Assoc Reference PermissionObject) (binding : PermissionObject) : Prop :=
  ∀ q ∈ binding.given?, q.IsRole → objects.get? q ≠ none

/-- Where a binding of a bundle is found, the role is there that the bundle has it give. -/
def Backed (b : Bundle) (objects : Assoc Reference PermissionObject) : Prop :=
  ∀ o ∈ b.bindings, objects.get? o.reference ≠ none → Backs objects o

/-- Where a binding of a bundle is found, the role is there that the object gives which is found. -/
def BackedAsFound (b : Bundle) (objects : Assoc Reference PermissionObject) : Prop :=
  ∀ o ∈ b.bindings, ∀ found ∈ objects.get? o.reference, Backs objects found

theorem Backs.mono {binding : PermissionObject} (h : Backs before binding)
    (roles : ∀ q : Reference, q.IsRole → before.get? q ≠ none → after.get? q ≠ none) :
    Backs after binding :=
  fun q hq hrole => roles q hrole (h q hq hrole)

theorem backs_of_role {role : PermissionObject} (hgiven : o.given? = some role.reference)
    (hthere : after.get? role.reference = some role) : Backs after o := by
  intro q hq _
  obtain rfl : role.reference = q := Option.some.inj (hgiven.symm.trans hq)
  rw [hthere]
  exact nofun

/-- A bundle stays backed through whatever can become of its bindings. -/
theorem Backed.of_fate (h : b.Backed before) (hfate : ∀ o ∈ b.bindings, b.Fate before after o) :
    b.Backed after := by
  intro o ho hthere
  cases hfate o ho with
  | gone none => exact absurd none hthere
  | made there role =>
      obtain ⟨role, -, hgiven, hrole⟩ := role
      exact backs_of_role hgiven hrole
  | kept same roles => exact (h o ho (same ▸ hthere)).mono roles

theorem BackedAsFound.of_fate (h : b.BackedAsFound before)
    (hfate : ∀ o ∈ b.bindings, b.Fate before after o) : b.BackedAsFound after := by
  intro o ho found hfound
  cases hfate o ho with
  | gone none =>
      rw [none] at hfound
      exact nomatch hfound
  | made there role =>
      obtain ⟨role, -, hgiven, hrole⟩ := role
      obtain rfl : o = found := Option.some.inj (there.symm.trans hfound)
      exact backs_of_role hgiven hrole
  | kept same roles => exact (h o ho found (same ▸ hfound)).mono roles

/-! ## Every point of a run -/

/-- **No binding is without its role.** While a bundle that was made is applied or removed, at each
call and in the end, wherever that is and whichever calls failed: if each binding that was found at
the start had its role, then so has each that is found now. -/
theorem backed_of_run {owner : Owner} {account : ServiceAccount} {base : String}
    {w₀ w₀' : World} {p : Task Unit} {calls : List (World × Port.Call)}
    (hmade : (owner.generate account base).Ends troubled w₀ (.ok b) w₀')
    (hp : p = b.install ∨ p = b.uninstall) (hproper : w.cluster.Proper)
    (h : p.Goes troubled w calls result w') :
    ∀ s, (∃ call, (s, call) ∈ calls) ∨ s = w' →
      (b.Backed w.cluster.objects → b.Backed s.cluster.objects) ∧
      (b.BackedAsFound w.cluster.objects → b.BackedAsFound s.cluster.objects) := by
  intro s hs
  have hends : ∃ r, p.Ends troubled w r s := by
    rcases hs with ⟨call, hcall⟩ | rfl
    · exact h.ends_begun (s, call) hcall
    · exact ⟨result, h.ends⟩
  obtain ⟨r, hends⟩ := hends
  have hfate : ∀ o ∈ b.bindings, b.Fate w.cluster.objects s.cluster.objects o := by
    intro o ho
    rcases hp with rfl | rfl
    · obtain rfl := (Owner.generate_ok hmade).2
      have hapart : (owner.bundle account base
          (.ofReport owner.namespaceName w₀.report)).references.Nodup :=
        Owner.nodup_references (Needs.nodup_spaces_ofReport _ _)
      exact fate_of_install hapart (fun _ => role_of_made) hends ho
    · exact fate_of_uninstall hproper hends ho
  exact ⟨fun hbacked => hbacked.of_fate hfate, fun hbacked => hbacked.of_fate hfate⟩

/-- A bundle with roles in three namespaces and two in the whole cluster is applied to an empty
cluster and removed again, object by object. -/
theorem backed_of_run_tenant :
    let b := (Owner.tenant "apps").bundleFor Owner.keeper "web" Owner.common
    let applied := (World.empty fun _ => default).run none b.install
    let removed := applied.state.run none b.uninstall
    applied.begun.length = 10 ∧ removed.begun.length = 10 ∧
      ∀ begun ∈ applied.begun ++ removed.begun, b.Backed begun.1.cluster.objects := by
  have hmade : ((Owner.tenant "apps").generate Owner.keeper "web").Ends troubled
      (Owner.reporting Owner.common)
        (.ok ((Owner.tenant "apps").bundleFor Owner.keeper "web" Owner.common))
          (Owner.reporting Owner.common) :=
    troubled_of_answers (Owner.ends_generate rfl rfl)
  have hempty : (World.empty fun _ => default).cluster.objects = [] := rfl
  have happlied : ((World.empty fun _ => default).run none
      ((Owner.tenant "apps").bundleFor Owner.keeper "web" Owner.common).install).begun.length =
        10 := by
    decide +kernel
  have hremoved : (((World.empty fun _ => default).run none
      ((Owner.tenant "apps").bundleFor Owner.keeper "web" Owner.common).install).state.run none
        ((Owner.tenant "apps").bundleFor Owner.keeper "web"
          Owner.common).uninstall).begun.length = 10 := by
    decide +kernel
  -- World and bundle become variables before the theorem is applied, so that no run is evaluated.
  generalize World.empty (fun _ => default) = w at *
  generalize (Owner.tenant "apps").bundleFor Owner.keeper "web" Owner.common = b at *
  intro _ applied removed
  have hproper : w.cluster.Proper := by
    unfold Cluster.Proper
    rw [hempty]
    exact List.nodup_nil
  have hstart : b.Backed w.cluster.objects := by
    intro o _ hthere
    rw [hempty] at hthere
    exact absurd rfl hthere
  have happly := goes_of_run w b.install
  have hremove := goes_of_run applied.state b.uninstall
  have hfirst := backed_of_run hmade (Or.inl rfl) hproper happly
  have hsecond := backed_of_run hmade (Or.inr rfl) (proper_ends hproper happly.ends) hremove
  refine ⟨happlied, hremoved, fun begun hbegun => ?_⟩
  rcases List.mem_append.mp hbegun with hbegun | hbegun
  · exact (hfirst begun.1 (Or.inl ⟨begun.2, hbegun⟩)).1 hstart
  · exact (hsecond begun.1 (Or.inl ⟨begun.2, hbegun⟩)).1 ((hfirst _ (Or.inr rfl)).1 hstart)

end Bundle

end Chartkeeper
