import Chartkeeper.Permission.Need
import Chartkeeper.Proofs.Text.Lookup
/-!
# Where a chart needs something

The needs of a report are kept in tables, but in which namespaces something is needed, whether
anything is needed in the whole cluster, and what it is, can be read off the report itself.
-/

namespace Chartkeeper

/-! ## The needs of one scope -/

namespace Need

variable {n : Need} {group group' resource resource' : String}

/-- A resource of a group is among what is needed. -/
def Has (n : Need) (group resource : String) : Prop :=
  resource ∈ ((n.get? group).getD []).keys

/-- Each group is there once and with some resource, and each resource of it once. -/
structure Proper (n : Need) : Prop where
  groups : n.Ascending
  resources : ∀ row ∈ n, row.2 ≠ [] ∧ row.2.Ascending

theorem not_has_nil : ¬Has [] group resource := List.not_mem_nil

theorem proper_nil : Proper [] := ⟨Table.ascending_nil, nofun⟩

/-- To add a resource adds it and nothing else. -/
theorem has_add :
    (n.add group resource).Has group' resource' ↔
      (group = group' ∧ resource = resource') ∨ n.Has group' resource' := by
  unfold Has add
  by_cases hgroup : group' = group
  · subst hgroup
    rw [Table.get?_insert_self, Option.getD_some, Table.mem_keys_insert]
    simp [eq_comm]
  · rw [Table.get?_insert_of_ne hgroup]
    simp [Ne.symm hgroup]

theorem Proper.resources_get? (h : n.Proper) (group : String) :
    ((n.get? group).getD []).Ascending := by
  cases hget : n.get? group with
  | none => exact Table.ascending_nil
  | some resources =>
      exact (h.resources _ ((Table.get?_eq_some_iff h.groups.nodup).mp hget)).2

theorem Proper.add (h : n.Proper) (group resource : String) : (n.add group resource).Proper := by
  have hgroups : (n.add group resource).Ascending := Table.ascending_insert h.groups
  refine ⟨hgroups, fun row hrow => ?_⟩
  have hget := (Table.get?_eq_some_iff hgroups.nodup).mpr hrow
  unfold Need.add at hget
  by_cases hgroup : row.1 = group
  · subst hgroup
    rw [Table.get?_insert_self] at hget
    rw [← Option.some.inj hget]
    refine ⟨fun hnil => ?_, Table.ascending_insert (h.resources_get? _)⟩
    have hmem : resource ∈ (Table.insert resource () ((n.get? row.1).getD [])).keys :=
      Table.mem_keys_insert.mpr (Or.inl rfl)
    rw [hnil] at hmem
    exact nomatch hmem
  · rw [Table.get?_insert_of_ne hgroup] at hget
    exact h.resources row ((Table.get?_eq_some_iff h.groups.nodup).mp hget)

end Need

namespace Needs

variable {n : Needs} {own space : String} {report : List Requirement} {q : Requirement}

/-- A need that something was added to is not empty. -/
theorem isEmpty_need_add (need : Need) (group resource : String) :
    (need.add group resource).isEmpty = false := by
  have hmem : group ∈ (need.add group resource).keys :=
    Table.mem_keys_insert.mpr (Or.inl rfl)
  rw [List.isEmpty_eq_false_iff_exists_mem]
  obtain ⟨row, hrow, -⟩ := List.mem_map.mp hmem
  exact ⟨row, hrow⟩

theorem mem_spaces_add :
    space ∈ (n.add q).spaces.keys ↔
      (q.namespaceName = space ∧ space ≠ "") ∨ space ∈ n.spaces.keys := by
  unfold add
  by_cases hq : q.namespaceName.isEmpty = true
  · rw [if_pos hq]
    rw [String.isEmpty_iff] at hq
    constructor
    · exact Or.inr
    · rintro (⟨rfl, hne⟩ | hmem)
      · exact absurd hq hne
      · exact hmem
  · rw [if_neg hq]
    rw [String.isEmpty_iff] at hq
    show space ∈ (Table.insert _ _ _).keys ↔ _
    rw [Table.mem_keys_insert]
    constructor
    · rintro (rfl | hmem)
      · exact Or.inl ⟨rfl, hq⟩
      · exact Or.inr hmem
    · rintro (⟨rfl, -⟩ | hmem)
      · exact Or.inl rfl
      · exact Or.inr hmem

theorem cluster_add :
    (n.add q).cluster.isEmpty = false ↔ q.namespaceName = "" ∨ n.cluster.isEmpty = false := by
  unfold add
  by_cases hq : q.namespaceName.isEmpty = true
  · rw [if_pos hq]
    rw [String.isEmpty_iff] at hq
    exact ⟨fun _ => Or.inl hq, fun _ => isEmpty_need_add _ _ _⟩
  · rw [if_neg hq]
    rw [String.isEmpty_iff] at hq
    exact ⟨Or.inr, fun h => h.resolve_left hq⟩

theorem mem_spaces_foldl : ∀ {report : List Requirement} {n : Needs},
    space ∈ (report.foldl add n).spaces.keys ↔
      (∃ q ∈ report, q.namespaceName = space ∧ space ≠ "") ∨ space ∈ n.spaces.keys
  | [], n => by simp
  | q :: rest, n => by
      rw [List.foldl_cons, mem_spaces_foldl, mem_spaces_add]
      simp only [List.mem_cons, exists_eq_or_imp, or_assoc, or_left_comm]

theorem cluster_foldl : ∀ {report : List Requirement} {n : Needs},
    (report.foldl add n).cluster.isEmpty = false ↔
      (∃ q ∈ report, q.namespaceName = "") ∨ n.cluster.isEmpty = false
  | [], n => by simp
  | q :: rest, n => by
      rw [List.foldl_cons, cluster_foldl, cluster_add]
      simp only [List.mem_cons, exists_eq_or_imp, or_assoc, or_left_comm]

/-- Something is needed in each namespace of the report, and in the composition's own one. -/
theorem mem_spaces_ofReport :
    space ∈ (ofReport own report).spaces.keys ↔
      space = own ∨ ∃ q ∈ report, q.namespaceName = space ∧ space ≠ "" := by
  show space ∈ (Table.insertNew own [] _).keys ↔ _
  rw [Table.mem_keys_insertNew, mem_spaces_foldl]
  simp [Table.keys]

/-- Something is needed in the whole cluster when a requirement names no namespace. -/
theorem cluster_ofReport :
    (ofReport own report).cluster.isEmpty = false ↔ ∃ q ∈ report, q.namespaceName = "" := by
  show (report.foldl add ⟨[], []⟩).cluster.isEmpty = false ↔ _
  rw [cluster_foldl]
  simp

/-! ## What is needed there -/

/-- What is needed in a namespace, or in the whole cluster when that is empty. -/
def within (n : Needs) (space : String) : Need :=
  if space = "" then n.cluster else (n.spaces.get? space).getD []

/-- A report asks for a resource of a group in a scope. -/
def Asked (report : List Requirement) (space group resource : String) : Prop :=
  ∃ q ∈ report, q.namespaceName = space ∧ q.group = group ∧ q.resource = resource

/-- A requirement counts in its own scope and nowhere else. -/
theorem within_add :
    (n.add q).within space =
      if q.namespaceName = space then (n.within space).add q.group q.resource
      else n.within space := by
  unfold within add
  by_cases hspace : space = ""
  · subst hspace
    by_cases hq : q.namespaceName = "" <;> simp [hq]
  · by_cases hq : q.namespaceName = space
    · subst hq
      simp [hspace]
    · by_cases hcluster : q.namespaceName = ""
      · simp [hcluster, hspace, Ne.symm hspace]
      · simp [hcluster, hspace, hq, Table.get?_insert_of_ne (Ne.symm hq)]

/-- What is needed in a scope is what was asked for there. -/
theorem has_within_foldl {group resource : String} : ∀ {report : List Requirement} {n : Needs},
    ((report.foldl add n).within space).Has group resource ↔
      Asked report space group resource ∨ (n.within space).Has group resource
  | [], n => by simp [Asked]
  | q :: rest, n => by
      rw [List.foldl_cons, has_within_foldl, within_add]
      by_cases hq : q.namespaceName = space
      · rw [if_pos hq, Need.has_add]
        simp only [Asked, List.mem_cons, exists_eq_or_imp, hq, true_and]
        exact or_left_comm.trans or_assoc.symm
      · rw [if_neg hq]
        simp only [Asked, List.mem_cons, exists_eq_or_imp, hq, false_and, false_or]

theorem proper_within_foldl : ∀ {report : List Requirement} {n : Needs},
    (n.within space).Proper → ((report.foldl add n).within space).Proper
  | [], _, h => h
  | q :: rest, n, h => by
      have hadd : ((n.add q).within space).Proper := by
        rw [within_add]
        split
        · exact h.add _ _
        · exact h
      rw [List.foldl_cons]
      exact proper_within_foldl hadd

theorem within_ofReport :
    (ofReport own report).within space = (report.foldl add ⟨[], []⟩).within space := by
  unfold within ofReport
  simp only [Table.getD_get?_insertNew]

theorem has_within_ofReport {group resource : String} :
    ((ofReport own report).within space).Has group resource ↔
      Asked report space group resource := by
  have hstart : ¬((⟨[], []⟩ : Needs).within space).Has group resource := by
    unfold within
    split <;> exact Need.not_has_nil
  rw [within_ofReport, has_within_foldl, or_iff_left hstart]

theorem proper_within_ofReport (own space : String) (report : List Requirement) :
    ((ofReport own report).within space).Proper := by
  rw [within_ofReport]
  refine proper_within_foldl ?_
  unfold within
  split <;> exact Need.proper_nil

/-! ## Each namespace once -/

theorem ascending_add (h : n.spaces.Ascending) : (n.add q).spaces.Ascending := by
  unfold add
  split
  · exact h
  · exact Table.ascending_insert h

theorem ascending_foldl : ∀ {report : List Requirement} {n : Needs},
    n.spaces.Ascending → (report.foldl add n).spaces.Ascending
  | [], _, h => h
  | _ :: rest, _, h => @ascending_foldl rest _ (ascending_add h)

theorem ascending_spaces_ofReport (own : String) (report : List Requirement) :
    (ofReport own report).spaces.Ascending :=
  Table.ascending_insertNew (ascending_foldl Table.ascending_nil)

/-- What is needed in a namespace is found in one place. -/
theorem nodup_spaces_ofReport (own : String) (report : List Requirement) :
    (ofReport own report).spaces.keys.Nodup :=
  (ascending_spaces_ofReport own report).nodup

/-- Each row is what is needed in its namespace. -/
theorem mem_spaces_iff_within (hown : own ≠ "") {row : String × Need} :
    row ∈ (ofReport own report).spaces ↔
      row.1 ∈ (ofReport own report).spaces.keys ∧ row.2 = (ofReport own report).within row.1 := by
  have hwithin {row : String × Need} (hrow : row ∈ (ofReport own report).spaces) :
      row.2 = (ofReport own report).within row.1 := by
    have hne : row.1 ≠ "" := by
      rcases mem_spaces_ofReport.mp (List.mem_map_of_mem hrow) with hspace | ⟨q, -, -, hspace⟩
      · exact hspace ▸ hown
      · exact hspace
    unfold within
    rw [if_neg hne, (Table.get?_eq_some_iff (nodup_spaces_ofReport own report)).mpr hrow]
    rfl
  constructor
  · exact fun hrow => ⟨List.mem_map_of_mem hrow, hwithin hrow⟩
  · rintro ⟨hkey, hvalue⟩
    obtain ⟨found, hfound, hspace⟩ := List.mem_map.mp hkey
    have heq : found = row := Prod.ext hspace ((hwithin hfound).trans (hspace ▸ hvalue.symm))
    exact heq ▸ hfound

end Needs

end Chartkeeper
