import Chartkeeper.Permission.Bundle
/-!
# What the objects of a bundle are found by

A bundle is made from what a chart needs, but what its objects are found by depends on little of
that: on the namespaces, and on whether anything is needed in the whole cluster. Each role shares
its name and scope with its binding.
-/

namespace Chartkeeper

namespace Bundle

variable {b : Bundle} {o : PermissionObject}

/-- What the objects of a bundle are found by. -/
def references (b : Bundle) : List Reference :=
  b.objects.map PermissionObject.reference

/-- The order of removal leaves no object out. -/
theorem mem_removeOrder : o ∈ b.removeOrder ↔ o ∈ b.objects := by
  unfold removeOrder bindings roles
  rw [List.mem_append, List.mem_filter, List.mem_filter]
  cases o.isBinding with
  | false => simp
  | true => simp

theorem isBinding_of_mem_bindings (ho : o ∈ b.bindings) : o.isBinding = true :=
  (List.mem_filter.mp ho).2

theorem not_isBinding_of_mem_roles (ho : o ∈ b.roles) : o.isBinding = false := by
  have hnot := (List.mem_filter.mp ho).2
  rwa [Bool.not_eq_true'] at hnot

/-- Applying leaves no object out either, and takes none twice. -/
theorem applyOrder_perm (b : Bundle) : b.applyOrder.Perm b.objects :=
  List.perm_append_comm.trans (List.filter_append_perm PermissionObject.isBinding b.objects)

end Bundle

namespace Owner

variable {o : Owner} {account : ServiceAccount} {base : String} {needs : Needs} {r : Reference}

/-- A reference to a role in a namespace or to its binding. -/
def Local (name space : String) (r : Reference) : Prop :=
  r = ⟨"Role", name, space⟩ ∨ r = ⟨"RoleBinding", name, space⟩

/-- A reference to a role of the whole cluster or to its binding. -/
def Global (name : String) (r : Reference) : Prop :=
  r = ⟨"ClusterRole", name, ""⟩ ∨ r = ⟨"ClusterRoleBinding", name, ""⟩

theorem mem_roles {role : PermissionObject} :
    role ∈ o.roles base needs ↔
      (∃ row ∈ needs.spaces,
        .role (o.roleName base row.1) row.1 (o.spaceRules row.1 row.2) = role) ∨
      (needs.cluster.isEmpty = false ∧
        role = .clusterRole (o.clusterRoleName base) needs.cluster.rules) ∨
      role = .clusterRole (o.definitionRoleName base) [o.definitionRule] := by
  unfold roles
  rw [List.mem_append, List.mem_append, List.mem_map, List.mem_singleton, or_assoc]
  cases needs.cluster.isEmpty with
  | true => simp
  | false => simp

/-- Every object of a bundle is one of its roles or the binding of one. -/
theorem mem_references :
    r ∈ (o.bundle account base needs).references ↔
      ∃ role ∈ o.roles base needs, r = role.reference ∨ r = (bindingOf account role).reference := by
  unfold bundle Bundle.references
  simp only [List.map_append, List.map_map, List.mem_append, List.mem_map, Function.comp]
  constructor
  · rintro (⟨role, hrole, rfl⟩ | ⟨role, hrole, rfl⟩)
    · exact ⟨role, hrole, Or.inl rfl⟩
    · exact ⟨role, hrole, Or.inr rfl⟩
  · rintro ⟨role, hrole, rfl | rfl⟩
    · exact Or.inl ⟨role, hrole, rfl⟩
    · exact Or.inr ⟨role, hrole, rfl⟩

/-- **What a bundle reaches.** A role in each namespace in which something is needed, one for the
definition, and one for the whole cluster if something is needed there. -/
theorem mem_references_bundle :
    r ∈ (o.bundle account base needs).references ↔
      (∃ space ∈ needs.spaces.keys, Local (o.roleName base space) space r) ∨
      Global (o.definitionRoleName base) r ∨
      (needs.cluster.isEmpty = false ∧ Global (o.clusterRoleName base) r) := by
  rw [mem_references]
  constructor
  · rintro ⟨role, hrole, hr⟩
    rcases mem_roles.mp hrole with ⟨row, hrow, rfl⟩ | ⟨hcluster, rfl⟩ | rfl
    · exact Or.inl ⟨row.1, List.mem_map_of_mem hrow, hr⟩
    · exact Or.inr (Or.inr ⟨hcluster, hr⟩)
    · exact Or.inr (Or.inl hr)
  · rintro (⟨space, hspace, hr⟩ | hr | ⟨hcluster, hr⟩)
    · obtain ⟨row, hrow, rfl⟩ := List.mem_map.mp hspace
      exact ⟨_, mem_roles.mpr (Or.inl ⟨row, hrow, rfl⟩), hr⟩
    · exact ⟨_, mem_roles.mpr (Or.inr (Or.inr rfl)), hr⟩
    · exact ⟨_, mem_roles.mpr (Or.inr (Or.inl ⟨hcluster, rfl⟩)), hr⟩

/-! ## Objects apart -/

theorem isBinding_of_mem_roles {role : PermissionObject} (h : role ∈ o.roles base needs) :
    role.isBinding = false := by
  rcases mem_roles.mp h with ⟨_, -, rfl⟩ | ⟨-, rfl⟩ | rfl <;> rfl

theorem isBinding_bindingOf {role : PermissionObject} (h : role.isBinding = false) :
    (bindingOf account role).isBinding = true := by
  cases role with
  | role | clusterRole => rfl
  | roleBinding | clusterRoleBinding => exact nomatch h

/-- The roles of a bundle are those that it was made from. -/
theorem roles_bundle (o : Owner) (account : ServiceAccount) (base : String) (needs : Needs) :
    (o.bundle account base needs).roles = o.roles base needs := by
  unfold Bundle.roles bundle
  dsimp only
  rw [List.filter_append, List.filter_eq_self.mpr, List.filter_eq_nil_iff.mpr, List.append_nil]
  · intro binding hbinding
    obtain ⟨role, hrole, rfl⟩ := List.mem_map.mp hbinding
    simp [isBinding_bindingOf (isBinding_of_mem_roles hrole)]
  · intro role hrole
    simp [isBinding_of_mem_roles hrole]

/-- Its bindings are those of its roles. -/
theorem bindings_bundle (o : Owner) (account : ServiceAccount) (base : String) (needs : Needs) :
    (o.bundle account base needs).bindings = (o.roles base needs).map (bindingOf account) := by
  unfold Bundle.bindings bundle
  dsimp only
  rw [List.filter_append, List.filter_eq_nil_iff.mpr, List.filter_eq_self.mpr, List.nil_append]
  · intro binding hbinding
    obtain ⟨role, hrole, rfl⟩ := List.mem_map.mp hbinding
    exact isBinding_bindingOf (isBinding_of_mem_roles hrole)
  · intro role hrole
    simp [isBinding_of_mem_roles hrole]

/-- Bindings are apart when the roles are that they give. -/
theorem reference_eq_of_bindingOf {role role' : PermissionObject} (h : role.isBinding = false)
    (h' : role'.isBinding = false)
    (heq : (bindingOf account role).reference = (bindingOf account role').reference) :
    role.reference = role'.reference := by
  cases role <;> cases role' <;>
    simp_all [bindingOf, ServiceAccount.bind, ServiceAccount.bindCluster,
      PermissionObject.reference, PermissionObject.kind, PermissionObject.name,
      PermissionObject.namespaceName, PermissionObject.isBinding]

/-- No binding is found as a role is. -/
theorem reference_ne_bindingOf {role role' : PermissionObject} (h : role.isBinding = false)
    (h' : role'.isBinding = false) : role.reference ≠ (bindingOf account role').reference := by
  cases role <;> cases role' <;>
    simp_all [bindingOf, ServiceAccount.bind, ServiceAccount.bindCluster,
      PermissionObject.reference, PermissionObject.kind, PermissionObject.isBinding]

/-- The role for the whole cluster never has the name of the one for the definition. -/
theorem clusterRoleName_ne (o : Owner) (base : String) :
    o.clusterRoleName base ≠ o.definitionRoleName base := by
  intro heq
  have hlength := congrArg String.length heq
  unfold definitionRoleName at hlength
  rw [String.length_append] at hlength
  exact absurd (Nat.left_eq_add.mp hlength) (by decide)

theorem nodup_reference_roles (h : needs.spaces.keys.Nodup) :
    ((o.roles base needs).map PermissionObject.reference).Nodup := by
  have hspaces : (needs.spaces.map fun row =>
      (⟨"Role", o.roleName base row.1, row.1⟩ : Reference)).Nodup := by
    refine List.pairwise_map.mpr ((List.pairwise_map.mp h).imp fun hne heq => hne ?_)
    exact congrArg Reference.namespaceName heq
  have hname := clusterRoleName_ne o base
  unfold roles
  rw [List.append_assoc, List.map_append, List.map_map, List.nodup_append]
  refine ⟨hspaces, ?_, ?_⟩
  · cases needs.cluster.isEmpty with
    | true => simp
    | false =>
        simpa [PermissionObject.reference, PermissionObject.kind, PermissionObject.name,
          PermissionObject.namespaceName] using hname
  · intro a ha b hb
    obtain ⟨row, -, rfl⟩ := List.mem_map.mp ha
    obtain ⟨role, hrole, rfl⟩ := List.mem_map.mp hb
    have hkind : role.kind = "ClusterRole" := by
      rcases List.mem_append.mp hrole with hcluster | hdefinition
      · split at hcluster
        · exact nomatch hcluster
        · rw [List.mem_singleton.mp hcluster]
          rfl
      · rw [List.mem_singleton.mp hdefinition]
        rfl
    intro heq
    have hsame : "Role" = role.kind := congrArg Reference.kind heq
    rw [hkind] at hsame
    exact absurd hsame (by decide)

/-- **No two objects of a bundle are found by one reference**, so none replaces another. -/
theorem nodup_references (h : needs.spaces.keys.Nodup) :
    (o.bundle account base needs).references.Nodup := by
  have hroles : ((o.roles base needs).map PermissionObject.reference).Nodup :=
    nodup_reference_roles h
  unfold Bundle.references bundle
  dsimp only
  rw [List.map_append, List.map_map, List.nodup_append]
  refine ⟨hroles, ?_, ?_⟩
  · refine List.pairwise_map.mpr ((List.pairwise_map.mp hroles).imp_of_mem ?_)
    intro role role' hrole hrole' hne heq
    exact hne (reference_eq_of_bindingOf (isBinding_of_mem_roles hrole)
      (isBinding_of_mem_roles hrole') heq)
  · intro a ha b hb
    obtain ⟨role, hrole, rfl⟩ := List.mem_map.mp ha
    obtain ⟨role', hrole', rfl⟩ := List.mem_map.mp hb
    exact reference_ne_bindingOf (isBinding_of_mem_roles hrole) (isBinding_of_mem_roles hrole')

end Owner

end Chartkeeper
