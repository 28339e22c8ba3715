import Chartkeeper.Proofs.Permission.Coverage
/-!
# What a bundle says of a report

Two reports on a chart may list the same resources in another order, more than once or in other API
versions. The tables that the needs are kept in have one form for all of them, so the bundles are
the same, rule by rule and in the same order: what was applied for the one report is removed for the
other. And a bundle grants nothing that was not asked for, so bundles for other resources differ.

- `Need.Proper.ext`, `Needs.ofReport_congr`: the needs of a report depend on what it asks for alone.
- `Owner.Grants.asked`: what was asked for can be read off a bundle.
- `generate_eq_iff`: two bundles are the same exactly if the reports ask for the same.
-/

namespace Chartkeeper

open World

/-- What a requirement asks for, and where: the version of the API does not matter. -/
def Requirement.asks (q : Requirement) : String × String × String :=
  (q.namespaceName, q.group, q.resource)

/-! ## Needs in one form -/

namespace Need

variable {n n' : Need}

/-- A group without a resource has no row. -/
theorem Proper.get?_eq (h : n.Proper) (group : String) :
    n.get? group =
      if (n.get? group).getD [] = [] then none else some ((n.get? group).getD []) := by
  cases hget : n.get? group with
  | none => exact (if_pos rfl).symm
  | some resources =>
    have hrow : (group, resources) ∈ n := (Table.get?_eq_some_iff h.groups.nodup).mp hget
    exact (if_neg (h.resources _ hrow).1).symm

theorem Proper.ext (h : n.Proper) (h' : n'.Proper)
    (hhas : ∀ group resource, n.Has group resource ↔ n'.Has group resource) : n = n' := by
  refine h.groups.ext h'.groups fun group => ?_
  have hresources : (n.get? group).getD [] = (n'.get? group).getD [] :=
    (h.resources_get? group).ext_keys (h'.resources_get? group) (hhas group)
  rw [h.get?_eq, h'.get?_eq, hresources]

end Need

namespace Needs

variable {own space : String} {report report' : List Requirement}

theorem asked_iff_mem {group resource : String} :
    Asked report space group resource ↔
      (space, group, resource) ∈ report.map Requirement.asks := by
  simp [Asked, Requirement.asks]

theorem mem_spaces_iff_asked :
    space ∈ (ofReport own report).spaces.keys ↔
      space = own ∨ (∃ group resource, Asked report space group resource) ∧ space ≠ "" := by
  rw [mem_spaces_ofReport]
  refine or_congr Iff.rfl ⟨?_, ?_⟩
  · rintro ⟨q, hq, hspace, hne⟩
    exact ⟨⟨q.group, q.resource, q, hq, hspace, rfl, rfl⟩, hne⟩
  · rintro ⟨⟨group, resource, q, hq, hspace, -⟩, hne⟩
    exact ⟨q, hq, hspace, hne⟩

/-- **Needs do not depend on how they are reported**, only on what is asked for, and where. -/
theorem ofReport_congr (hown : own ≠ "")
    (h : ∀ space group resource,
      Asked report space group resource ↔ Asked report' space group resource) :
    ofReport own report = ofReport own report' := by
  have hwithin : ∀ space,
      (ofReport own report).within space = (ofReport own report').within space := by
    intro space
    refine (proper_within_ofReport own space report).ext
      (proper_within_ofReport own space report') fun group resource => ?_
    rw [has_within_ofReport, has_within_ofReport, h]
  have hspaces : (ofReport own report).spaces = (ofReport own report').spaces := by
    refine (ascending_spaces_ofReport own report).ext_mem (ascending_spaces_ofReport own report')
      fun row => ?_
    simp only [mem_spaces_iff_within hown, mem_spaces_iff_asked, h, hwithin]
  exact (Needs.mk.injEq ..).mpr ⟨hspaces, hwithin ""⟩

end Needs

/-! ## Reports read off a bundle -/

namespace Owner

variable {o : Owner} {account : ServiceAccount} {base : String} {b : Bundle}
  {report report' : List Requirement} {space group resource : String}

/-- What one report asks for, every report asks for whose bundle grants the same. -/
theorem Grants.asked (h : o.Grants account report b) (h' : o.Grants account report' b)
    (hasked : Needs.Asked report space group resource) :
    Needs.Asked report' space group resource := by
  have ⟨q, hq, hspace, _⟩ := hasked
  by_cases hne : space = ""
  · subst hne
    obtain ⟨role, ⟨hrole, hkind, hsome⟩, -⟩ := h.cluster.mp ⟨q, hq, hspace⟩
    have hmanages := (h.clusterRole role hrole hkind).resolve_right fun hnone => hsome hnone.1
    have hmanages' := (h'.clusterRole role hrole hkind).resolve_right fun hnone => hsome hnone.1
    exact (hmanages'.2.1.covers group resource).mpr ((hmanages.2.1.covers group resource).mp hasked)
  · obtain ⟨role, ⟨hrole, hkind, rfl⟩, -⟩ := h.space space (Or.inr ⟨q, hq, hspace, hne⟩)
    have hmanages := (h.role role hrole hkind).2.1
    have hmanages' := (h'.role role hrole hkind).2.1
    exact (hmanages'.covers group resource).mpr ((hmanages.covers group resource).mp hasked)

theorem bundleFor_eq_iff (hown : o.namespaceName ≠ "") :
    o.bundleFor account base report = o.bundleFor account base report' ↔
      ∀ space group resource,
        Needs.Asked report space group resource ↔ Needs.Asked report' space group resource := by
  constructor
  · intro heq space group resource
    have h : o.Grants account report (o.bundleFor account base report) := grants_bundleFor hown
    have h' : o.Grants account report' (o.bundleFor account base report) :=
      heq ▸ grants_bundleFor hown
    exact ⟨h.asked h', h'.asked h⟩
  · intro h
    unfold bundleFor
    rw [Needs.ofReport_congr hown h]

/-- **A bundle is decided by what is asked for.** Whatever the inspector reports at two times, an
owner that can have a bundle gets one each time. They are the same, object by object and rule by
rule in the same order, exactly if both reports ask for the same resources of the same groups in the
same namespaces. -/
theorem generate_eq_iff {w w' : World} (deadline deadline' : Option Nat)
    (hvalid : o.Valid account base) (hserves : w.inspectorFailure = none)
    (hserves' : w'.inspectorFailure = none) :
    ∃ b b', (w.run deadline (o.generate account base)).result = .ok b ∧
      (w'.run deadline' (o.generate account base)).result = .ok b' ∧
      (b = b' ↔ ∀ space group resource, Needs.Asked w.report space group resource ↔
        Needs.Asked w'.report space group resource) :=
  ⟨_, _, result_generate deadline hvalid hserves, result_generate deadline' hvalid hserves',
    bundleFor_eq_iff hvalid.space⟩

/-- The same resources as those that are scattered, in another order, one in another version and
two of them twice. -/
def gathered : World :=
  { World.empty fun _ => default with
    report := [⟨"", "v1", "nodes", ""⟩, ⟨"", "v1", "pods", "ops"⟩, ⟨"", "v1beta2", "pods", "ops"⟩,
      ⟨"apps", "v2", "deployments", "ops"⟩, ⟨"", "v1", "nodes", ""⟩] }

theorem generate_eq_iff_gathered :
    (tenant "apps").Valid keeper "web" ∧ scattered.inspectorFailure = none ∧
      gathered.inspectorFailure = none ∧ scattered.report ≠ gathered.report ∧
      ∃ b, (scattered.run none ((tenant "apps").generate keeper "web")).result = .ok b ∧
        (gathered.run none ((tenant "apps").generate keeper "web")).result = .ok b := by
  have hvalid : (tenant "apps").Valid keeper "web" := ⟨by decide, by decide, by decide, by decide⟩
  obtain ⟨b, b', hb, hb', hiff⟩ :=
    @generate_eq_iff (tenant "apps") keeper "web" scattered gathered none none hvalid rfl rfl
  have hsame : ∀ space group resource, Needs.Asked scattered.report space group resource ↔
      Needs.Asked gathered.report space group resource := by
    intro space group resource
    have hsub : ∀ a ∈ scattered.report.map Requirement.asks,
        a ∈ gathered.report.map Requirement.asks := by decide
    have hsub' : ∀ a ∈ gathered.report.map Requirement.asks,
        a ∈ scattered.report.map Requirement.asks := by decide
    rw [Needs.asked_iff_mem, Needs.asked_iff_mem]
    exact ⟨hsub _, hsub' _⟩
  obtain rfl := hiff.mpr hsame
  exact ⟨hvalid, rfl, rfl, by decide, b, hb, hb'⟩

end Owner

end Chartkeeper
