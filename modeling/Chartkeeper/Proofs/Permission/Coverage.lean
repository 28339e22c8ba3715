import Mathlib.Data.List.Nodup
import Mathlib.Logic.ExistsUnique
import Chartkeeper.Proofs.Permission.Overlap
/-!
# A bundle grants what is needed

The report on a chart says which resources it creates, and where. The bundle that is made from it
lets the controller manage these and nothing else: nothing that was asked for is left out, and
nothing is granted that was not asked for.

- `Manages`: rules that grant the management of exactly what is needed. `Need.manages_rules` says
  that the rules of a need are of this kind.
- `Owner.Grants`: what is in a bundle, role by role and binding by binding.
- `grants_of_generate`: every bundle that is made is of this kind, and one is made for every owner
  that can have one.
-/

namespace Chartkeeper

open World

/-! ## Rules for what is needed -/

/-- What the controller may do with resources that it manages. -/
def managementVerbs : List String :=
  ["get", "list", "watch", "create", "update", "patch", "delete"]

/-- Rules that grant full management of exactly what is needed. Each of them is for one group and
for objects of any name, no group has two of them, and none lists a resource twice. -/
structure Manages (needed : String → String → Prop) (rules : List Rule) : Prop where
  rule : ∀ rule ∈ rules, (∃ group, rule.groups = [group]) ∧ rule.resources ≠ [] ∧
    rule.resources.Nodup ∧ rule.names = [] ∧ rule.verbs = managementVerbs
  groups : (rules.map Rule.groups).Nodup
  covers : ∀ group resource, needed group resource ↔
    ∃ rule ∈ rules, rule.groups = [group] ∧ resource ∈ rule.resources

namespace Need

variable {n : Need} {group resource : String}

theorem has_iff (h : n.Proper) :
    n.Has group resource ↔ ∃ row ∈ n, row.1 = group ∧ resource ∈ row.2.keys := by
  unfold Has
  constructor
  · intro hmem
    cases hget : n.get? group with
    | none =>
        rw [hget] at hmem
        exact nomatch hmem
    | some resources =>
        rw [hget] at hmem
        exact ⟨_, (Table.get?_eq_some_iff h.groups.nodup).mp hget, rfl, hmem⟩
  · rintro ⟨row, hrow, rfl, hmem⟩
    rw [(Table.get?_eq_some_iff h.groups.nodup).mpr hrow]
    exact hmem

/-- **The rules of a need** grant what is needed, and nothing else. -/
theorem manages_rules (h : n.Proper) : Manages n.Has n.rules where
  rule := by
    intro rule hrule
    obtain ⟨row, hrow, rfl⟩ := List.mem_map.mp hrule
    obtain ⟨hsome, hresources⟩ := h.resources row hrow
    refine ⟨⟨row.1, rfl⟩, fun hnil => hsome ?_, hresources.nodup, rfl, rfl⟩
    exact List.map_eq_nil_iff.mp hnil
  groups := by
    have hgroups : n.rules.map Rule.groups = n.keys.map fun group => [group] := by
      simp [rules, Table.keys]
    rw [hgroups]
    exact h.groups.nodup.map fun group group' heq => List.head_eq_of_cons_eq heq
  covers := by
    intro group resource
    rw [has_iff h]
    constructor
    · rintro ⟨row, hrow, rfl, hmem⟩
      exact ⟨_, List.mem_map_of_mem hrow, rfl, hmem⟩
    · rintro ⟨rule, hrule, hgroup, hmem⟩
      obtain ⟨row, hrow, rfl⟩ := List.mem_map.mp hrule
      exact ⟨row, hrow, List.head_eq_of_cons_eq hgroup, hmem⟩

/-- There is a rule exactly where something is needed. -/
theorem rules_ne_nil_iff : n.rules ≠ [] ↔ n.isEmpty = false := by
  unfold rules
  rw [ne_eq, List.map_eq_nil_iff, ← List.isEmpty_iff, Bool.not_eq_true]

end Need

/-! ## What an object of a bundle grants -/

namespace PermissionObject

def rules : PermissionObject → List Rule
  | .role _ _ rules | .clusterRole _ rules => rules
  | .roleBinding .. | .clusterRoleBinding .. => []

/-- The rules that grant full management. -/
def managing (o : PermissionObject) : List Rule :=
  o.rules.filter fun rule => rule.verbs = managementVerbs

/-- The other rules. -/
def further (o : PermissionObject) : List Rule :=
  o.rules.filter fun rule => rule.verbs ≠ managementVerbs

def link? : PermissionObject → Option RoleLink
  | .roleBinding _ _ link _ | .clusterRoleBinding _ link _ => some link
  | .role .. | .clusterRole .. => none

def subjects : PermissionObject → List Subject
  | .roleBinding _ _ _ subjects | .clusterRoleBinding _ _ subjects => subjects
  | .role .. | .clusterRole .. => []

/-- A binding of a role, in the scope of the role. -/
structure Binds (binding role : PermissionObject) : Prop where
  kind : binding.kind = role.kind ++ "Binding"
  namespaceName : binding.namespaceName = role.namespaceName
  link : binding.link? = some ⟨"rbac.authorization.k8s.io", role.kind, role.name⟩

variable {binding role role' : PermissionObject}

/-- No binding is of two roles. -/
theorem Binds.reference (h : binding.Binds role) (h' : binding.Binds role') :
    role.reference = role'.reference := by
  have hlink := h.link.symm.trans h'.link
  simp only [Option.some.injEq, RoleLink.mk.injEq, true_and] at hlink
  simp [PermissionObject.reference, hlink, ← h.namespaceName, ← h'.namespaceName]

theorem binds_bindingOf (account : ServiceAccount) (h : role.isBinding = false) :
    (Owner.bindingOf account role).Binds role := by
  cases role with
  | role | clusterRole => exact ⟨rfl, rfl, rfl⟩
  | roleBinding | clusterRoleBinding => exact nomatch h

theorem subjects_bindingOf (account : ServiceAccount) (h : role.isBinding = false) :
    (Owner.bindingOf account role).subjects = [account.subject] := by
  cases role with
  | role | clusterRole => rfl
  | roleBinding | clusterRoleBinding => exact nomatch h

/-- The rules of a need in front of others that do not manage. -/
theorem filter_rules (n : Need) {others : List Rule}
    (h : ∀ rule ∈ others, rule.verbs ≠ managementVerbs) :
    (n.rules ++ others).filter (fun rule => rule.verbs = managementVerbs) = n.rules ∧
      (n.rules ++ others).filter (fun rule => rule.verbs ≠ managementVerbs) = others := by
  have hneed : ∀ rule ∈ n.rules, rule.verbs = managementVerbs := by
    intro rule hrule
    obtain ⟨row, -, rfl⟩ := List.mem_map.mp hrule
    rfl
  constructor
  · rw [List.filter_append, List.filter_eq_self.mpr, List.filter_eq_nil_iff.mpr, List.append_nil]
    · simpa using h
    · simpa using hneed
  · rw [List.filter_append, List.filter_eq_nil_iff.mpr, List.filter_eq_self.mpr, List.nil_append]
    · simpa using h
    · simpa using hneed

end PermissionObject

/-! ## What a bundle grants -/

namespace Owner

/-- **What a bundle grants.** In each namespace that is reached a role manages what was asked for
there. The one in the composition's own namespace has one more rule, for the composition and its
status. Where something was asked for in the whole cluster, a role manages that; another one reads
the definition. Each role has a binding, to one account. Nothing else is in the bundle, and no two
objects are found by one reference. -/
structure Grants (o : Owner) (account : ServiceAccount) (report : List Requirement) (b : Bundle) :
    Prop where
  space : ∀ space, o.Reaches report space →
    ∃! role, role ∈ b.roles ∧ role.kind = "Role" ∧ role.namespaceName = space
  role : ∀ role ∈ b.roles, role.kind = "Role" → o.Reaches report role.namespaceName ∧
    Manages (Needs.Asked report role.namespaceName) role.managing ∧
    role.further = if role.namespaceName = o.namespaceName then
      [⟨[o.resource.group], [o.resource.resource, o.resource.resource ++ "/status"], [o.name],
        ["get", "list", "watch", "update", "patch"]⟩] else []
  cluster : NeedsCluster report ↔
    ∃! role, role ∈ b.roles ∧ role.kind = "ClusterRole" ∧ role.managing ≠ []
  definition : ∃! role, role ∈ b.roles ∧ role.kind = "ClusterRole" ∧ role.managing = []
  clusterRole : ∀ role ∈ b.roles, role.kind = "ClusterRole" →
    (role.managing ≠ [] ∧ Manages (Needs.Asked report "") role.managing ∧ role.further = []) ∨
      (role.managing = [] ∧ role.further =
        [⟨[o.definition.resource.group], [o.definition.resource.resource], [o.definition.name],
          ["get", "list", "watch"]⟩])
  binding : ∀ role ∈ b.roles, ∃! binding, binding ∈ b.bindings ∧ binding.Binds role
  bound : ∀ binding ∈ b.bindings, (∃ role ∈ b.roles, binding.Binds role) ∧
    binding.subjects = [⟨"ServiceAccount", account.name, account.namespaceName⟩]
  apart : b.references.Nodup

variable {o : Owner} {account : ServiceAccount} {base space : String} {report : List Requirement}
  {role : PermissionObject}

/-- The role in a namespace. -/
def spaceRole (o : Owner) (base : String) (report : List Requirement) (space : String) :
    PermissionObject :=
  .role (o.roleName base space) space
    (o.spaceRules space ((Needs.ofReport o.namespaceName report).within space))

/-- The role for what is needed in the whole cluster. -/
def wideRole (o : Owner) (base : String) (report : List Requirement) : PermissionObject :=
  .clusterRole (o.clusterRoleName base)
    ((Needs.ofReport o.namespaceName report).within "").rules

/-- The role that reads the definition. -/
def definitionRole (o : Owner) (base : String) : PermissionObject :=
  .clusterRole (o.definitionRoleName base) [o.definitionRule]

/-- The roles of a bundle, one by one. -/
theorem mem_roles_bundleFor (hown : o.namespaceName ≠ "") :
    role ∈ (o.bundleFor account base report).roles ↔
      (∃ space, o.Reaches report space ∧ role = o.spaceRole base report space) ∨
      (NeedsCluster report ∧ role = o.wideRole base report) ∨ role = o.definitionRole base := by
  unfold bundleFor
  rw [roles_bundle, mem_roles, Needs.cluster_ofReport]
  refine or_congr ⟨?_, ?_⟩ Iff.rfl
  · rintro ⟨row, hrow, rfl⟩
    obtain ⟨hkey, hwithin⟩ := (Needs.mem_spaces_iff_within hown).mp hrow
    exact ⟨row.1, Needs.mem_spaces_ofReport.mp hkey, by rw [spaceRole, ← hwithin]⟩
  · rintro ⟨space, hspace, rfl⟩
    refine ⟨(space, (Needs.ofReport o.namespaceName report).within space), ?_, rfl⟩
    exact (Needs.mem_spaces_iff_within hown).mpr ⟨Needs.mem_spaces_ofReport.mpr hspace, rfl⟩

/-! ### Its roles -/

theorem eq_spaceRole (hown : o.namespaceName ≠ "")
    (hrole : role ∈ (o.bundleFor account base report).roles) (hkind : role.kind = "Role") :
    ∃ space, o.Reaches report space ∧ role = o.spaceRole base report space := by
  have hne : "ClusterRole" ≠ "Role" := by decide
  rcases (mem_roles_bundleFor hown).mp hrole with hspace | ⟨-, rfl⟩ | rfl
  · exact hspace
  · exact absurd hkind hne
  · exact absurd hkind hne

theorem eq_clusterRole (hown : o.namespaceName ≠ "")
    (hrole : role ∈ (o.bundleFor account base report).roles) (hkind : role.kind = "ClusterRole") :
    (NeedsCluster report ∧ role = o.wideRole base report) ∨ role = o.definitionRole base := by
  rcases (mem_roles_bundleFor hown).mp hrole with ⟨space, -, rfl⟩ | hcluster
  · have hne : "Role" ≠ "ClusterRole" := by decide
    exact absurd hkind hne
  · exact hcluster

theorem managing_spaceRole :
    (o.spaceRole base report space).managing =
        ((Needs.ofReport o.namespaceName report).within space).rules ∧
      (o.spaceRole base report space).further =
        if space = o.namespaceName then [o.selfRule] else [] := by
  refine PermissionObject.filter_rules _ fun rule hrule => ?_
  split at hrule
  · rw [List.mem_singleton.mp hrule]
    show ["get", "list", "watch", "update", "patch"] ≠ managementVerbs
    decide
  · exact nomatch hrule

theorem managing_wideRole :
    (o.wideRole base report).managing =
        ((Needs.ofReport o.namespaceName report).within "").rules ∧
      (o.wideRole base report).further = [] := by
  have h := @PermissionObject.filter_rules ((Needs.ofReport o.namespaceName report).within "") []
    nofun
  rwa [List.append_nil] at h

theorem managing_definitionRole :
    (o.definitionRole base).managing = [] ∧
      (o.definitionRole base).further = [o.definitionRule] :=
  ⟨rfl, rfl⟩

/-- The rules that manage in a scope grant what was asked for there. -/
theorem manages_within (o : Owner) (report : List Requirement) (space : String) :
    Manages (Needs.Asked report space)
      ((Needs.ofReport o.namespaceName report).within space).rules := by
  have h := Need.manages_rules (Needs.proper_within_ofReport o.namespaceName space report)
  refine ⟨h.rule, h.groups, fun group resource => ?_⟩
  exact Needs.has_within_ofReport.symm.trans (h.covers group resource)

theorem managing_wideRole_ne_nil (h : NeedsCluster report) :
    (o.wideRole base report).managing ≠ [] := by
  rw [managing_wideRole.1, Need.rules_ne_nil_iff]
  exact Needs.cluster_ofReport.mpr h

/-! ### Its bindings -/

theorem mem_bindings_bundleFor {binding : PermissionObject} :
    binding ∈ (o.bundleFor account base report).bindings ↔
      ∃ role ∈ (o.bundleFor account base report).roles, bindingOf account role = binding := by
  rw [bundleFor, bindings_bundle, roles_bundle]
  exact List.mem_map

/-- Roles of a bundle that are found by one reference are the same. -/
theorem eq_of_reference {role' : PermissionObject}
    (hrole : role ∈ (o.bundleFor account base report).roles)
    (hrole' : role' ∈ (o.bundleFor account base report).roles)
    (heq : role.reference = role'.reference) : role = role' := by
  rw [bundleFor, roles_bundle] at hrole hrole'
  have hspaces := Needs.nodup_spaces_ofReport o.namespaceName report
  exact List.inj_on_of_nodup_map (nodup_reference_roles hspaces) hrole hrole' heq

/-! ### All of it -/

/-- **A bundle that is made grants what is needed.** -/
theorem grants_bundleFor (hown : o.namespaceName ≠ "") :
    o.Grants account report (o.bundleFor account base report) where
  space := by
    intro space hspace
    refine ⟨o.spaceRole base report space,
      ⟨(mem_roles_bundleFor hown).mpr (Or.inl ⟨space, hspace, rfl⟩), rfl, rfl⟩, ?_⟩
    rintro role ⟨hrole, hkind, hname⟩
    obtain ⟨space', -, rfl⟩ := eq_spaceRole hown hrole hkind
    obtain rfl : space' = space := hname
    rfl
  role := by
    intro role hrole hkind
    obtain ⟨space, hspace, rfl⟩ := eq_spaceRole hown hrole hkind
    refine ⟨hspace, ?_, managing_spaceRole.2⟩
    rw [managing_spaceRole.1]
    exact manages_within o report space
  cluster := by
    constructor
    · intro hneeds
      refine ⟨o.wideRole base report, ⟨(mem_roles_bundleFor hown).mpr (Or.inr (Or.inl
        ⟨hneeds, rfl⟩)), rfl, managing_wideRole_ne_nil hneeds⟩, ?_⟩
      rintro role ⟨hrole, hkind, hmanaging⟩
      rcases eq_clusterRole hown hrole hkind with ⟨-, rfl⟩ | rfl
      · rfl
      · exact absurd managing_definitionRole.1 hmanaging
    · rintro ⟨role, ⟨hrole, hkind, hmanaging⟩, -⟩
      rcases eq_clusterRole hown hrole hkind with ⟨hneeds, -⟩ | rfl
      · exact hneeds
      · exact absurd managing_definitionRole.1 hmanaging
  definition := by
    refine ⟨o.definitionRole base, ⟨(mem_roles_bundleFor hown).mpr (Or.inr (Or.inr rfl)), rfl,
      managing_definitionRole.1⟩, ?_⟩
    rintro role ⟨hrole, hkind, hmanaging⟩
    rcases eq_clusterRole hown hrole hkind with ⟨hneeds, rfl⟩ | rfl
    · exact absurd hmanaging (managing_wideRole_ne_nil hneeds)
    · rfl
  clusterRole := by
    intro role hrole hkind
    rcases eq_clusterRole hown hrole hkind with ⟨hneeds, rfl⟩ | rfl
    · refine Or.inl ⟨managing_wideRole_ne_nil hneeds, ?_, managing_wideRole.2⟩
      rw [managing_wideRole.1]
      exact manages_within o report ""
    · exact Or.inr managing_definitionRole
  binding := by
    intro role hrole
    have hnot := Bundle.not_isBinding_of_mem_roles hrole
    refine ⟨bindingOf account role, ⟨mem_bindings_bundleFor.mpr ⟨role, hrole, rfl⟩,
      PermissionObject.binds_bindingOf account hnot⟩, ?_⟩
    rintro binding ⟨hbinding, hbinds⟩
    obtain ⟨role', hrole', rfl⟩ := mem_bindings_bundleFor.mp hbinding
    have hnot' := Bundle.not_isBinding_of_mem_roles hrole'
    have hbinds' := PermissionObject.binds_bindingOf account hnot'
    rw [eq_of_reference hrole' hrole (hbinds'.reference hbinds)]
  bound := by
    intro binding hbinding
    obtain ⟨role, hrole, rfl⟩ := mem_bindings_bundleFor.mp hbinding
    have hnot := Bundle.not_isBinding_of_mem_roles hrole
    exact ⟨⟨role, hrole, PermissionObject.binds_bindingOf account hnot⟩,
      PermissionObject.subjects_bindingOf account hnot⟩
  apart := nodup_references (Needs.nodup_spaces_ofReport _ _)

/-! ## Bundles that are made -/

/-- What it takes to get a bundle. -/
structure Valid (o : Owner) (account : ServiceAccount) (base : String) : Prop where
  base : base ≠ ""
  accountName : account.name ≠ ""
  accountSpace : account.namespaceName ≠ ""
  space : o.namespaceName ≠ ""

theorem check_of_valid (h : o.Valid account base) : o.check account base = .ok () := by
  obtain ⟨hbase, hname, hspace, hown⟩ := h
  unfold check
  simp only [String.isEmpty_iff, hbase, hname, hspace, hown, Bool.or_eq_true, or_self, if_false]

/-- No call is waited for when a bundle is made, so no deadline cuts that off. -/
theorem result_generate {w : World} (deadline : Option Nat) (h : o.Valid account base)
    (hserves : w.inspectorFailure = none) :
    (w.run deadline (o.generate account base)).result =
      .ok (o.bundleFor account base w.report) := by
  have hprompt : (o.generate account base).Only fun call => ∀ s, machine.wait s call = 0 :=
    Program.only_bind Program.only_lift fun _ =>
      Program.only_bind (Program.only_ask fun _ => rfl) fun _ => Program.only_pure
  exact ((ends_generate (check_of_valid h) hserves).unique (hprompt.ends_run deadline w 0).1).1

/-- **A bundle grants exactly what the chart needs.** Every owner that can have a bundle gets one,
whatever the inspector reports, and it grants what was reported and nothing else. -/
theorem grants_of_generate {w : World} (deadline : Option Nat) (hvalid : o.Valid account base)
    (hserves : w.inspectorFailure = none) :
    ∃ b, (w.run deadline (o.generate account base)).result = .ok b ∧
      o.Grants account w.report b :=
  ⟨_, result_generate deadline hvalid hserves, grants_bundleFor hvalid.space⟩

/-- A world whose inspector reports resources in another namespace, one of them twice, and one of
the whole cluster. -/
def scattered : World :=
  { World.empty fun _ => default with
    report := [⟨"apps", "v1", "deployments", "ops"⟩, ⟨"", "v1", "nodes", ""⟩,
      ⟨"", "v1", "pods", "ops"⟩, ⟨"apps", "v1beta1", "deployments", "ops"⟩] }

/-- The role in the other namespace manages what was reported there, the node not among it. -/
theorem grants_of_generate_scattered :
    (tenant "apps").Valid keeper "web" ∧ scattered.inspectorFailure = none ∧
      ∃ b, (scattered.run none ((tenant "apps").generate keeper "web")).result = .ok b ∧
        ∃! role, (role ∈ b.roles ∧ role.kind = "Role" ∧ role.namespaceName = "ops") ∧
          (∃ rule ∈ role.managing, rule.groups = ["apps"] ∧ "deployments" ∈ rule.resources ∧
            "delete" ∈ rule.verbs) ∧
          ¬∃ rule ∈ role.managing, rule.groups = [""] ∧ "nodes" ∈ rule.resources := by
  have hvalid : (tenant "apps").Valid keeper "web" := ⟨by decide, by decide, by decide, by decide⟩
  obtain ⟨b, hb, hgrants⟩ := grants_of_generate (w := scattered) none hvalid rfl
  refine ⟨hvalid, rfl, b, hb, ?_⟩
  have hreached : (tenant "apps").Reaches scattered.report "ops" :=
    Or.inr ⟨_, List.mem_cons_self, rfl, by decide⟩
  obtain ⟨role, ⟨hrole, hkind, hspace⟩, hunique⟩ := hgrants.space "ops" hreached
  have hmanages := (hgrants.role role hrole hkind).2.1
  have hcovers := hmanages.covers
  rw [hspace] at hcovers
  refine ⟨role, ⟨⟨hrole, hkind, hspace⟩, ?_, ?_⟩, fun other h => hunique other h.1⟩
  · obtain ⟨rule, hrule, hgroup, hresource⟩ :=
      (hcovers "apps" "deployments").mp ⟨_, List.mem_cons_self, rfl, rfl, rfl⟩
    obtain ⟨-, -, -, -, hverbs⟩ := hmanages.rule rule hrule
    refine ⟨rule, hrule, hgroup, hresource, ?_⟩
    rw [hverbs]
    decide
  · intro hnodes
    obtain ⟨q, hq, hspace', -, hresource⟩ := (hcovers "" "nodes").mpr hnodes
    have hnone : ∀ q ∈ scattered.report, ¬(q.namespaceName = "ops" ∧ q.resource = "nodes") := by
      decide
    exact hnone q hq ⟨hspace', hresource⟩

end Owner

end Chartkeeper
