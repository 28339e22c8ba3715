import Chartkeeper.Proofs.Permission.Overlap
/-!
# Removing undoes applying

A bundle is removed by its references, and these do not depend on what is granted: two bundles of
one base name and one namespace have the same ones if the charts need something in the same places.
So a bundle that was made later, for another definition or for a report that was put together
differently, removes what an earlier one applied, and nothing is left but what was there before
under other references.

- `mem_references_congr`: which bundles have the same references.
- `Bundle.objects_of_round_trip`: the objects after both.
- `uninstall_undoes_install`: the same for the runs, and what applying does before and if repeated.
-/

namespace Chartkeeper

open World

/-! ## Bundles with the same references -/

namespace Owner

variable {o₁ o₂ : Owner} {base : String} {report₁ report₂ : List Requirement}
  {account₁ account₂ : ServiceAccount} {space : String} {r : Reference}

/-- Two reports that need something in the same namespaces, and agree on whether something is needed
in the whole cluster. -/
structure SameScopes (report₁ report₂ : List Requirement) : Prop where
  spaces : ∀ space, space ≠ "" →
    ((∃ q ∈ report₁, q.namespaceName = space) ↔ ∃ q ∈ report₂, q.namespaceName = space)
  cluster : NeedsCluster report₁ ↔ NeedsCluster report₂

theorem reaches_congr (hown : o₁.namespaceName = o₂.namespaceName)
    (h : SameScopes report₁ report₂) : o₁.Reaches report₁ space ↔ o₂.Reaches report₂ space := by
  have hsplit (report : List Requirement) :
      (∃ q ∈ report, q.namespaceName = space ∧ space ≠ "") ↔
        (∃ q ∈ report, q.namespaceName = space) ∧ space ≠ "" := by
    simp only [← and_assoc, exists_and_right]
  unfold Reaches
  rw [hown, hsplit, hsplit, and_congr_left (h.spaces space)]

/-- What the objects of a bundle are found by depends on the base name, the namespace, and where
something is needed. -/
theorem mem_references_congr (hown : o₁.namespaceName = o₂.namespaceName)
    (h : SameScopes report₁ report₂) :
    r ∈ (o₁.bundleFor account₁ base report₁).references ↔
      r ∈ (o₂.bundleFor account₂ base report₂).references := by
  have hname : o₁.clusterRoleName base = o₂.clusterRoleName base := by
    unfold clusterRoleName
    rw [hown]
  have hlocal (space : String) : o₁.roleName base space = o₂.roleName base space := by
    unfold roleName
    rw [hown]
  rw [mem_references_bundleFor, mem_references_bundleFor, definitionRoleName_eq_iff.mpr hname,
    hname, h.cluster]
  simp only [hlocal, reaches_congr hown h]

end Owner

/-! ## Objects after both -/

namespace Bundle

variable {a b : Bundle} {w w₁ w₂ : World}

/-- What was applied by one bundle and deleted by another one of the same references leaves what was
there under other references, in its order. -/
theorem objects_of_round_trip (hproper : w.cluster.Proper)
    (hsame : ∀ r, r ∈ a.references ↔ r ∈ b.references)
    (hinstall : a.install.Ends troubled w (.ok ()) w₁)
    (huninstall : b.uninstall.Ends troubled w₁ (.ok ()) w₂) :
    w₂.cluster.objects = w.cluster.objects.filter fun row => decide (row.1 ∉ a.references) := by
  have hkept (row : Reference × PermissionObject) :
      decide (row.1 ∉ b.removeOrder.map PermissionObject.reference) =
        decide (row.1 ∉ a.references) := by
    rw [decide_eq_decide, mem_references_removeOrder, hsame]
  have hleft : ∀ row ∈ a.applyOrder.map fun o => (o.reference, o),
      decide (row.1 ∉ a.references) = false := by
    intro row hrow
    obtain ⟨o, ho, rfl⟩ := List.mem_map.mp hrow
    refine decide_eq_false (not_not_intro ?_)
    exact mem_references_applyOrder.mp (List.mem_map_of_mem ho)
  calc w₂.cluster.objects
      = w₁.cluster.objects.filter fun row =>
          decide (row.1 ∉ b.removeOrder.map PermissionObject.reference) := by
        rw [objects_of_uninstall huninstall]
        exact Assoc.eraseAll_eq_filter (proper_ends hproper hinstall)
    _ = w₁.cluster.objects.filter fun row => decide (row.1 ∉ a.references) := by
        simp only [hkept]
    _ = w.cluster.objects.filter fun row => decide (row.1 ∉ a.references) := by
        rw [objects_of_install hinstall]
        exact Assoc.filter_insertAll (p := fun r => decide (r ∉ a.references)) hleft

end Bundle

/-! ## Runs -/

namespace Owner

variable {o₁ o₂ : Owner} {account₁ account₂ : ServiceAccount} {base : String} {a b : Bundle}
  {w w₁ w₁' w₂ w₂' : World}

/-- **Removing undoes applying.** Of two bundles of one base name and one namespace, made from
reports that need something in the same places, the first is applied and then the second removed,
and no call fails. Then what was in the cluster before is there, in its order, without what the
references of the first lead to. In between, the first is there as it was made and the rest as it
was before, and applying it once more would change nothing. -/
theorem uninstall_undoes_install
    (ha : (o₁.generate account₁ base).Ends troubled w₁ (.ok a) w₁')
    (hb : (o₂.generate account₂ base).Ends troubled w₂ (.ok b) w₂')
    (hown : o₁.namespaceName = o₂.namespaceName) (hscopes : SameScopes w₁.report w₂.report)
    (hproper : w.cluster.Proper) (hserves : w.cluster.failure = none) :
    let applied := w.run none a.install
    let removed := applied.state.run none b.uninstall
    let again := applied.state.run none a.install
    applied.result = .ok () ∧ removed.result = .ok () ∧ again.result = .ok () ∧
      removed.state.cluster.objects =
        w.cluster.objects.filter (fun row => decide (row.1 ∉ a.references)) ∧
      again.state.cluster.objects = applied.state.cluster.objects ∧
      (∀ o ∈ a.objects, applied.state.cluster.objects.get? o.reference = some o) ∧
      ∀ r, r ∉ a.references →
        applied.state.cluster.objects.get? r = w.cluster.objects.get? r := by
  intro applied removed again
  have hmade : a = o₁.bundleFor account₁ base w₁.report := (generate_ok ha).2
  have hsame (r : Reference) : r ∈ a.references ↔ r ∈ b.references := by
    rw [hmade, show b = o₂.bundleFor account₂ base w₂.report from (generate_ok hb).2]
    exact mem_references_congr hown hscopes
  have hapart : a.references.Nodup := by
    rw [hmade]
    exact nodup_references (Needs.nodup_spaces_ofReport _ _)
  -- No call changes whether the cluster is made to fail, so all three runs end well.
  have hserves₁ : applied.state.cluster.failure = none :=
    (keeps_failure none a.install hserves (Program.ends_run _ w 0)).1
  have happlied : applied.result = .ok () := Bundle.result_install_of_failure hserves a
  have hremoved : removed.result = .ok () := Bundle.result_uninstall_of_failure hserves₁ b
  have hrepeated : again.result = .ok () := Bundle.result_install_of_failure hserves₁ a
  have happlies : a.install.Ends troubled w (.ok ()) applied.state :=
    troubled_of_answers (Program.ends_of_run_ok happlied)
  have hremoves : b.uninstall.Ends troubled applied.state (.ok ()) removed.state :=
    troubled_of_answers (Program.ends_of_run_ok hremoved)
  have hrepeats : a.install.Ends troubled applied.state (.ok ()) again.state :=
    troubled_of_answers (Program.ends_of_run_ok hrepeated)
  have hsettled : again.state.cluster.objects = applied.state.cluster.objects := by
    rw [Bundle.objects_of_install hrepeats, Bundle.objects_of_install happlies]
    exact Cluster.grant_self _ _
  exact ⟨happlied, hremoved, hrepeated,
    Bundle.objects_of_round_trip hproper hsame happlies hremoves, hsettled,
    Bundle.held_of_install hapart happlies, fun r hr => Bundle.kept_of_install hr happlies⟩

/-- What a chart needs, and what a later version of it needs in the same places. -/
def early : List Requirement :=
  [⟨"apps", "v1", "deployments", "ops"⟩, ⟨"", "v1", "nodes", ""⟩]

def late : List Requirement :=
  [⟨"rbac", "v1", "clusterroles", ""⟩, ⟨"", "v1", "pods", "ops"⟩, ⟨"batch", "v1", "jobs", "ops"⟩]

/-- A role of somebody else. -/
def foreign : PermissionObject := .role "other" "ops" []

/-- A cluster that holds an outdated role of a composition, and a role of somebody else. -/
def crowded : World :=
  let outdated : PermissionObject := .role "web" "apps" []
  { World.empty fun _ => default with
    cluster := ⟨[(outdated.reference, outdated), (foreign.reference, foreign)], [], [], none⟩ }

/-- The later bundle has other rules, and removes all that the earlier one applied. -/
theorem uninstall_undoes_install_shop :
    let first := (tenant "apps").bundleFor keeper "web" early
    let second := (tenant "apps").bundleFor keeper "web" late
    first ≠ second ∧
      ((crowded.run none first.install).state.run none second.uninstall).state.cluster.objects =
        [(foreign.reference, foreign)] := by
  intro first second
  have hscopes : SameScopes early late := by
    refine ⟨fun space _ => ?_, ?_⟩
    · simp [early, late, or_comm]
    · simp [NeedsCluster, early, late]
  have hmade (report : List Requirement) : ((tenant "apps").generate keeper "web").Ends troubled
      (reporting report) (.ok ((tenant "apps").bundleFor keeper "web" report)) (reporting report) :=
    troubled_of_answers (ends_generate rfl rfl)
  have hleft : crowded.cluster.objects.filter (fun row => decide (row.1 ∉ first.references)) =
      [(foreign.reference, foreign)] := by
    decide +kernel
  have hproper : crowded.cluster.Proper := by
    unfold Cluster.Proper
    decide
  have hserves : crowded.cluster.failure = none := rfl
  -- The world becomes a variable before the theorem is applied, so that no run is evaluated then.
  generalize crowded = w at hleft hproper hserves ⊢
  refine ⟨by decide +kernel, ?_⟩
  rw [← hleft]
  exact (uninstall_undoes_install (hmade early) (hmade late) rfl hscopes hproper hserves).2.2.2.1

end Owner

end Chartkeeper
