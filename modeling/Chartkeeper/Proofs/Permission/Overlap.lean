import Chartkeeper.Proofs.Control.Permissions
import Chartkeeper.Proofs.Permission.Need
/-!
# When bundles overlap

The names in a bundle are joined from parts that may hold the joining character themselves, so
bundles of different compositions can reach one object. Whether they do depends on few of their
names: on the roles for the whole cluster and for the definitions, and on the roles in those
namespaces that both reach. Bundles that stay apart in these are removed without touching each
other.
-/

namespace Chartkeeper.Owner

variable {o₁ o₂ : Owner} {base₁ base₂ : String} {report₁ report₂ : List Requirement}
  {account₁ account₂ : ServiceAccount} {name name' space space' : String} {r : Reference}

/-! ## Equal references -/

theorem Local.eq (h : Local name space r) (h' : Local name' space' r) :
    name = name' ∧ space = space' := by
  rcases h with rfl | rfl
  · rcases h' with h' | h'
    · injection h' with _ hname hspace
      exact ⟨hname, hspace⟩
    · simp at h'
  · rcases h' with h' | h'
    · simp at h'
    · injection h' with _ hname hspace
      exact ⟨hname, hspace⟩

theorem Global.eq (h : Global name r) (h' : Global name' r) : name = name' := by
  rcases h with rfl | rfl
  · rcases h' with h' | h'
    · injection h'
    · simp at h'
  · rcases h' with h' | h'
    · simp at h'
    · injection h'

/-- No reference is to a role in a namespace and to one of the whole cluster. -/
theorem Local.not_global (h : Local name space r) : ¬Global name' r := by
  rcases h with rfl | rfl
  · rintro (h' | h') <;> simp at h'
  · rintro (h' | h') <;> simp at h'

/-! ## Bundles for reports -/

/-- The namespaces that a composition reaches: its own, and those of what its chart needs. -/
def Reaches (o : Owner) (report : List Requirement) (space : String) : Prop :=
  space = o.namespaceName ∨ ∃ q ∈ report, q.namespaceName = space ∧ space ≠ ""

/-- Something is needed in the whole cluster. -/
def NeedsCluster (report : List Requirement) : Prop :=
  ∃ q ∈ report, q.namespaceName = ""

/-- The bundle for what the inspector reports. -/
def bundleFor (o : Owner) (account : ServiceAccount) (base : String) (report : List Requirement) :
    Bundle :=
  o.bundle account base (.ofReport o.namespaceName report)

theorem mem_references_bundleFor :
    r ∈ (o₁.bundleFor account₁ base₁ report₁).references ↔
      (∃ space, o₁.Reaches report₁ space ∧ Local (o₁.roleName base₁ space) space r) ∨
      Global (o₁.definitionRoleName base₁) r ∨
      (NeedsCluster report₁ ∧ Global (o₁.clusterRoleName base₁) r) := by
  unfold bundleFor
  rw [mem_references_bundle, Needs.cluster_ofReport]
  simp only [Needs.mem_spaces_ofReport]
  exact Iff.rfl

/-- Two compositions share no name where both have a role. -/
structure Apart (o₁ o₂ : Owner) (base₁ base₂ : String) (report₁ report₂ : List Requirement) :
    Prop where
  spaces : ∀ space, o₁.Reaches report₁ space → o₂.Reaches report₂ space →
    o₁.roleName base₁ space ≠ o₂.roleName base₂ space
  cluster : o₁.clusterRoleName base₁ ≠ o₂.clusterRoleName base₂
  left : NeedsCluster report₁ → o₁.clusterRoleName base₁ ≠ o₂.definitionRoleName base₂
  right : NeedsCluster report₂ → o₂.clusterRoleName base₂ ≠ o₁.definitionRoleName base₁

theorem definitionRoleName_eq_iff :
    o₁.definitionRoleName base₁ = o₂.definitionRoleName base₂ ↔
      o₁.clusterRoleName base₁ = o₂.clusterRoleName base₂ :=
  String.append_left_inj "-definition"

/-- What is reached in common is named alike, in one namespace or in the whole cluster. -/
theorem not_mem_references_of_apart (hapart : Apart o₁ o₂ base₁ base₂ report₁ report₂)
    (h : r ∈ (o₁.bundleFor account₁ base₁ report₁).references) :
    r ∉ (o₂.bundleFor account₂ base₂ report₂).references := by
  intro h'
  rw [mem_references_bundleFor] at h h'
  rcases h with ⟨space, hspace, h⟩ | hglobal
  · rcases h' with ⟨space', hspace', h'⟩ | h' | ⟨-, h'⟩
    · obtain ⟨hname, rfl⟩ := h.eq h'
      exact hapart.spaces space hspace hspace' hname
    · exact h.not_global h'
    · exact h.not_global h'
  · rcases h' with ⟨space', hspace', h'⟩ | h' | ⟨hneeds', h'⟩
    · rcases hglobal with h | ⟨-, h⟩
      · exact h'.not_global h
      · exact h'.not_global h
    · rcases hglobal with h | ⟨hneeds, h⟩
      · exact hapart.cluster (definitionRoleName_eq_iff.mp (h.eq h'))
      · exact hapart.left hneeds (h.eq h')
    · rcases hglobal with h | ⟨hneeds, h⟩
      · exact hapart.right hneeds' (h'.eq h)
      · exact hapart.cluster (h.eq h')

/-- Where names coincide, the roles of these names are reached in common. -/
theorem apart_of_not_mem_references
    (h : ∀ r ∈ (o₁.bundleFor account₁ base₁ report₁).references,
      r ∉ (o₂.bundleFor account₂ base₂ report₂).references) :
    Apart o₁ o₂ base₁ base₂ report₁ report₂ := by
  simp only [mem_references_bundleFor] at h
  refine ⟨fun space hspace hspace' hname => ?_, fun hname => ?_, fun hneeds hname => ?_,
    fun hneeds hname => ?_⟩
  · exact h ⟨"Role", o₁.roleName base₁ space, space⟩ (Or.inl ⟨space, hspace, Or.inl rfl⟩)
      (Or.inl ⟨space, hspace', Or.inl (by rw [hname])⟩)
  · exact h ⟨"ClusterRole", o₁.definitionRoleName base₁, ""⟩ (Or.inr (Or.inl (Or.inl rfl)))
      (Or.inr (Or.inl (Or.inl (by rw [definitionRoleName_eq_iff.mpr hname]))))
  · exact h ⟨"ClusterRole", o₁.clusterRoleName base₁, ""⟩ (Or.inr (Or.inr ⟨hneeds, Or.inl rfl⟩))
      (Or.inr (Or.inl (Or.inl (by rw [hname]))))
  · exact h ⟨"ClusterRole", o₁.definitionRoleName base₁, ""⟩ (Or.inr (Or.inl (Or.inl rfl)))
      (Or.inr (Or.inr ⟨hneeds, Or.inl (by rw [hname])⟩))

/-! ## Removing one of two bundles -/

/-- **When bundles overlap.** Two bundles reach no object in common exactly when their
compositions are apart. Then removing the one leaves what the other reaches as it is, wherever the
removal stops; otherwise a removal that does not stop takes an object of the other with it. -/
theorem references_disjoint_iff_apart {w₁ w₁' w₂ w₂' : World} {b₁ b₂ : Bundle}
    (h₁ : (o₁.generate account₁ base₁).Ends World.troubled w₁ (.ok b₁) w₁')
    (h₂ : (o₂.generate account₂ base₂).Ends World.troubled w₂ (.ok b₂) w₂') :
    ((∀ r ∈ b₁.references, r ∉ b₂.references) ↔
        Apart o₁ o₂ base₁ base₂ w₁.report w₂.report) ∧
      (Apart o₁ o₂ base₁ base₂ w₁.report w₂.report →
        ∀ w result w', b₁.uninstall.Ends World.troubled w result w' → ∀ r ∈ b₂.references,
          w'.cluster.objects.get? r = w.cluster.objects.get? r) ∧
      (¬Apart o₁ o₂ base₁ base₂ w₁.report w₂.report →
        ∃ r ∈ b₂.references, ∀ w w', w.cluster.Proper →
          b₁.uninstall.Ends World.troubled w (.ok ()) w' → w'.cluster.objects.get? r = none) := by
  obtain rfl : b₁ = o₁.bundleFor account₁ base₁ w₁.report := (generate_ok h₁).2
  obtain rfl : b₂ = o₂.bundleFor account₂ base₂ w₂.report := (generate_ok h₂).2
  refine ⟨⟨apart_of_not_mem_references, fun hapart r => not_mem_references_of_apart hapart⟩,
    fun hapart w result w' hends r hr => ?_, fun hoverlap => ?_⟩
  · exact Bundle.kept_of_uninstall
      (fun hr' => not_mem_references_of_apart hapart hr' hr) hends
  · have hshared : ∃ r ∈ (o₁.bundleFor account₁ base₁ w₁.report).references,
        r ∈ (o₂.bundleFor account₂ base₂ w₂.report).references := by
      refine Classical.byContradiction fun hnone => ?_
      have hdisjoint : ∀ r ∈ (o₁.bundleFor account₁ base₁ w₁.report).references,
          r ∉ (o₂.bundleFor account₂ base₂ w₂.report).references :=
        fun r hr₁ hr₂ => hnone ⟨r, hr₁, hr₂⟩
      exact hoverlap (apart_of_not_mem_references hdisjoint)
    obtain ⟨r, hr₁, hr₂⟩ := hshared
    refine ⟨r, hr₂, fun w w' hproper hends => ?_⟩
    rw [Bundle.get?_of_uninstall hproper hends, if_pos hr₁]

/-- An account that everything is bound to. -/
def keeper : ServiceAccount := ⟨"keeper", "platform"⟩

/-- A composition in a namespace. -/
def tenant (space : String) : Owner :=
  ⟨"shop", space, ⟨"composition", "v1", "webs"⟩, .empty⟩

/-- A world with an answer of the inspector. -/
def reporting (report : List Requirement) : World :=
  { World.empty fun _ => default with report }

/-- What charts need in two namespaces and in the whole cluster. -/
def common : List Requirement :=
  [⟨"apps", "v1", "deployments", "jobs"⟩, ⟨"", "v1", "pods", "ops"⟩, ⟨"", "v1", "nodes", ""⟩]

/-- Compositions of different base names are apart, although both reach one namespace beside their
own, the one reaches that of the other, and both need something in the whole cluster. -/
theorem references_disjoint_tenants :
    let first := (tenant "apps").bundleFor keeper "web" common
    let second := (tenant "ops").bundleFor keeper "shop" common
    (tenant "apps").check keeper "web" = .ok () ∧ (tenant "ops").check keeper "shop" = .ok () ∧
      (∀ r ∈ first.references, r ∉ second.references) ∧
      ∀ w result w', first.uninstall.Ends World.troubled w result w' →
        ∀ r ∈ second.references, w'.cluster.objects.get? r = w.cluster.objects.get? r := by
  intro first second
  have hcheck₁ : (tenant "apps").check keeper "web" = .ok () := rfl
  have hcheck₂ : (tenant "ops").check keeper "shop" = .ok () := rfl
  have h₁ := World.troubled_of_answers (ends_generate (w := reporting common) hcheck₁ rfl)
  have h₂ := World.troubled_of_answers (ends_generate (w := reporting common) hcheck₂ rfl)
  have hneeded : ∀ q ∈ common, q.namespaceName ≠ "" → q.namespaceName ∈ ["jobs", "ops"] := by
    decide
  have hnames : ∀ space ∈ ["apps", "jobs", "ops"],
      (tenant "apps").roleName "web" space ≠ (tenant "ops").roleName "shop" space := by
    decide
  have hapart : Apart (tenant "apps") (tenant "ops") "web" "shop" common common := by
    refine ⟨?_, by decide, fun _ => by decide, fun _ => by decide⟩
    rintro space (rfl | ⟨q, hq, rfl, hspace⟩) -
    · exact hnames _ List.mem_cons_self
    · exact hnames _ (List.mem_cons_of_mem _ (hneeded q hq hspace))
  obtain ⟨hiff, hkept, -⟩ := references_disjoint_iff_apart h₁ h₂
  exact ⟨hcheck₁, hcheck₂, hiff.mpr hapart, hkept hapart⟩

/-- **Joined names can coincide.** A composition of the base name `b-c` in the namespace `a` and
one of the base name `c` in the namespace `a-b` have one role for their definitions. -/
theorem references_overlap_of_joined_names :
    (tenant "a").check keeper "b-c" = .ok () ∧ (tenant "a-b").check keeper "c" = .ok () ∧
      ("a", "b-c") ≠ ("a-b", "c") ∧
      ∃ r ∈ ((tenant "a").bundleFor keeper "b-c" []).references,
        r ∈ ((tenant "a-b").bundleFor keeper "c" []).references :=
  ⟨rfl, rfl, by decide, ⟨"ClusterRole", "a-b-c-definition", ""⟩, by decide, by decide⟩

end Chartkeeper.Owner
