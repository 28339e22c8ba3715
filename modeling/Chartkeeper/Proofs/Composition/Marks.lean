import Chartkeeper.Composition.Marks
import Chartkeeper.Proofs.Text.Lookup
/-!
# What marking a record keeps

Labels and annotations are set and removed on a record while the controller works on it. None of
that changes what the controller makes of the record: two records are *alike* when they agree on
everything that releases and permissions are made from, on the release name, and on where they
stand in the pause protocol. Marking a record leads to one alike, and marking that reports no
change leads to the very same record.
-/

namespace Chartkeeper.Composition

/-- Two records that a controller makes the same of. They may differ in status, in labels other
than the release name, and in annotations that a pause does not depend on. -/
structure Alike (c d : Composition) : Prop where
  apiVersion : d.apiVersion = c.apiVersion
  kind : d.kind = c.kind
  spec : d.spec = c.spec
  name : d.metadata.name = c.metadata.name
  namespaceName : d.metadata.namespaceName = c.metadata.namespaceName
  uid : d.metadata.uid = c.metadata.uid
  deletionTime : d.metadata.deletionTime = c.metadata.deletionTime
  releaseName : d.releaseName = c.releaseName
  pause : d.pause = c.pause

variable {c d e : Composition}

namespace Alike

theorem refl (c : Composition) : Alike c c := ⟨rfl, rfl, rfl, rfl, rfl, rfl, rfl, rfl, rfl⟩

theorem trans (h : Alike c d) (h' : Alike d e) : Alike c e :=
  ⟨h'.apiVersion.trans h.apiVersion, h'.kind.trans h.kind, h'.spec.trans h.spec,
    h'.name.trans h.name, h'.namespaceName.trans h.namespaceName, h'.uid.trans h.uid,
    h'.deletionTime.trans h.deletionTime, h'.releaseName.trans h.releaseName,
    h'.pause.trans h.pause⟩

theorem symm (h : Alike c d) : Alike d c :=
  ⟨h.apiVersion.symm, h.kind.symm, h.spec.symm, h.name.symm, h.namespaceName.symm, h.uid.symm,
    h.deletionTime.symm, h.releaseName.symm, h.pause.symm⟩

theorem key (h : Alike c d) : d.key = c.key := by
  show d.metadata.namespaceName ++ "/" ++ d.metadata.name = _
  rw [h.namespaceName, h.name]
  rfl

theorem isDeleting (h : Alike c d) : d.isDeleting = c.isDeleting := by
  unfold Composition.isDeleting
  rw [h.deletionTime]

end Alike

/-- Writing the status changes nothing of what is made of a record. -/
theorem alike_status (c : Composition) (status : Status) : Alike c { c with status } :=
  ⟨rfl, rfl, rfl, rfl, rfl, rfl, rfl, rfl, rfl⟩

/-! ## The pause protocol -/

/-- A record is active exactly when the user does not ask for a pause. -/
theorem pause_eq_active_iff : c.pause = .active ↔ c.wantsPause = false := by
  unfold pause
  cases c.wantsPause with
  | false => simp
  | true =>
      by_cases h : c.metadata.annotations.contains pauseTimeAnnotation = true
      · simp [h]
      · simp [h]

theorem pause_eq_paused_iff :
    c.pause = .paused ↔
      c.wantsPause = true ∧ c.metadata.annotations.contains pauseTimeAnnotation = true := by
  unfold pause
  cases c.wantsPause with
  | false => simp
  | true =>
      by_cases h : c.metadata.annotations.contains pauseTimeAnnotation = true
      · simp [h]
      · simp [h]

theorem Alike.wantsPause (h : Alike c d) : d.wantsPause = c.wantsPause := by
  have hactive : d.wantsPause = false ↔ c.wantsPause = false := by
    rw [← pause_eq_active_iff, ← pause_eq_active_iff, h.pause]
  cases hc : c.wantsPause with
  | false => exact hactive.mpr hc
  | true =>
      rw [← Bool.not_eq_false]
      intro hd
      rw [hactive.mp hd] at hc
      exact nomatch hc

theorem wantsPause_eq_of_get?
    (h : d.metadata.annotations.get? pauseAnnotation =
      c.metadata.annotations.get? pauseAnnotation) : d.wantsPause = c.wantsPause := by
  unfold Composition.wantsPause
  rw [h]

/-- Once the time is noted, the pause that was asked for is in effect. -/
theorem pause_setPauseTime (h : c.wantsPause = true) (t : Instant) :
    (c.setPauseTime t).pause = .paused := by
  refine pause_eq_paused_iff.mpr ⟨?_, ?_⟩
  · rw [← h]
    exact wantsPause_eq_of_get? (Table.get?_insert_of_ne (by decide) _ _)
  · exact Table.contains_eq_true_iff.mpr (Table.mem_keys_insert.mpr (Or.inl rfl))

/-! ## The time of a pause -/

theorem eq_of_removePauseTime (h : c.removePauseTime.2 = false) : c.removePauseTime.1 = c := by
  show ({ c with metadata := { c.metadata with
    annotations := c.metadata.annotations.erase pauseTimeAnnotation } } : Composition) = c
  rw [Table.erase_eq_self h]

/-- Where no pause is in effect, nothing hangs on the time of one. -/
theorem alike_removePauseTime (h : c.pause ≠ .paused) : Alike c c.removePauseTime.1 := by
  have hwants : c.removePauseTime.1.wantsPause = c.wantsPause :=
    wantsPause_eq_of_get? (Table.get?_erase_of_ne (by decide) _)
  refine ⟨rfl, rfl, rfl, rfl, rfl, rfl, rfl, rfl, ?_⟩
  cases hc : c.wantsPause with
  | false => rw [pause_eq_active_iff.mpr hc, pause_eq_active_iff.mpr (hwants.trans hc)]
  | true =>
      have hnone : c.removePauseTime.2 = false :=
        Bool.eq_false_iff.mpr fun hnoted => h (pause_eq_paused_iff.mpr ⟨hc, hnoted⟩)
      rw [eq_of_removePauseTime hnone]

/-! ## Labels -/

theorem eq_of_setLabel {key value : String} (h : (c.setLabel key value).2 = false) :
    (c.setLabel key value).1 = c := by
  unfold setLabel at h ⊢
  by_cases hset : c.metadata.labels.get? key = some value
  · rw [if_pos hset]
  · rw [if_neg hset] at h
    exact nomatch h

theorem releaseName_eq_getD (c : Composition) : c.releaseName =
    c.releaseName?.getD (String.ofList (deriveReleaseName c.name.toList c.uid.toList)) := by
  unfold releaseName
  cases c.releaseName? <;> rfl

/-- A label that is not the release name changes nothing of what is made of a record. -/
theorem alike_setLabel {key : String} (h : key ≠ releaseNameLabel) (value : String) :
    Alike c (c.setLabel key value).1 := by
  unfold setLabel
  by_cases hset : c.metadata.labels.get? key = some value
  · rw [if_pos hset]
    exact Alike.refl c
  · rw [if_neg hset]
    have hkept : (c.withLabel key value).releaseName? = c.releaseName? := by
      unfold releaseName?
      rw [show (c.withLabel key value).metadata.labels.get? releaseNameLabel =
        c.metadata.labels.get? releaseNameLabel from Table.get?_insert_of_ne h.symm value _]
    refine ⟨rfl, rfl, rfl, rfl, rfl, rfl, rfl, ?_, rfl⟩
    rw [releaseName_eq_getD, releaseName_eq_getD c, hkept]
    rfl

theorem status_setLabel (c : Composition) (key value : String) :
    (c.setLabel key value).1.status = c.status := by
  unfold setLabel
  split <;> rfl

theorem eq_of_setLabels : ∀ {rows : List (String × String)} {c : Composition},
    (c.setLabels rows).2 = false → (c.setLabels rows).1 = c
  | [], _, _ => rfl
  | (key, value) :: rest, c, h => by
      have hnone : ((c.setLabel key value).2 ||
          ((c.setLabel key value).1.setLabels rest).2) = false := h
      obtain ⟨hfirst, hrest⟩ := Bool.or_eq_false_iff.mp hnone
      show ((c.setLabel key value).1.setLabels rest).1 = c
      rw [eq_of_setLabels hrest, eq_of_setLabel hfirst]

theorem alike_setLabels : ∀ {rows : List (String × String)} {c : Composition},
    (∀ row ∈ rows, row.1 ≠ releaseNameLabel) → Alike c (c.setLabels rows).1
  | [], c, _ => Alike.refl c
  | (_, value) :: _, _, h =>
      (alike_setLabel (h _ List.mem_cons_self) value).trans
        (alike_setLabels fun row hrow => h row (List.mem_cons_of_mem _ hrow))

theorem status_setLabels : ∀ (rows : List (String × String)) (c : Composition),
    (c.setLabels rows).1.status = c.status
  | [], _ => rfl
  | (key, value) :: rest, c =>
      (status_setLabels rest _).trans (status_setLabel c key value)

/-- Labels that are there are not changed by setting them. -/
theorem not_changed_setLabels : ∀ {rows : List (String × String)} {c : Composition},
    (∀ row ∈ rows, c.metadata.labels.get? row.1 = some row.2) → (c.setLabels rows).2 = false
  | [], _, _ => rfl
  | (key, value) :: rest, c, h => by
      have hfirst : c.setLabel key value = (c, false) := by
        unfold setLabel
        rw [if_pos (h _ List.mem_cons_self)]
      have hrest : (c.setLabels rest).2 = false :=
        not_changed_setLabels fun row hrow => h row (List.mem_cons_of_mem _ hrow)
      simp only [setLabels, hfirst, hrest, Bool.or_false]

/-! ## Look-ups of labels -/

theorem get?_setLabel_self (c : Composition) (key value : String) :
    (c.setLabel key value).1.metadata.labels.get? key = some value := by
  unfold setLabel
  by_cases hset : c.metadata.labels.get? key = some value
  · rw [if_pos hset]
    exact hset
  · rw [if_neg hset]
    exact Table.get?_insert_self _ _ _

theorem get?_setLabel_of_ne {key other : String} (h : other ≠ key) (c : Composition)
    (value : String) :
    (c.setLabel key value).1.metadata.labels.get? other = c.metadata.labels.get? other := by
  unfold setLabel
  by_cases hset : c.metadata.labels.get? key = some value
  · rw [if_pos hset]
  · rw [if_neg hset]
    exact Table.get?_insert_of_ne h _ _

theorem get?_setLabels_of_not_mem {other : String} : ∀ (rows : List (String × String))
    (c : Composition), other ∉ rows.map Prod.fst →
    (c.setLabels rows).1.metadata.labels.get? other = c.metadata.labels.get? other
  | [], _, _ => rfl
  | (key, value) :: rest, c, h => by
      obtain ⟨hkey, hrest⟩ := not_or.mp (mt List.mem_cons.mpr h)
      exact (get?_setLabels_of_not_mem rest _ hrest).trans (get?_setLabel_of_ne hkey c value)

/-- Of labels with different keys, each is as it was set. -/
theorem get?_setLabels_of_mem {row : String × String} : ∀ (rows : List (String × String))
    (c : Composition), (rows.map Prod.fst).Nodup → row ∈ rows →
    (c.setLabels rows).1.metadata.labels.get? row.1 = some row.2
  | (key, value) :: rest, c, hnodup, hrow => by
      obtain ⟨hkey, hrest⟩ := List.nodup_cons.mp hnodup
      rcases List.mem_cons.mp hrow with rfl | hrow
      · exact (get?_setLabels_of_not_mem rest _ hkey).trans (get?_setLabel_self c key value)
      · exact get?_setLabels_of_mem rest _ hrest hrow

theorem annotations_setLabel (c : Composition) (key value : String) :
    (c.setLabel key value).1.metadata.annotations = c.metadata.annotations := by
  unfold setLabel
  split <;> rfl

theorem annotations_setLabels : ∀ (rows : List (String × String)) (c : Composition),
    (c.setLabels rows).1.metadata.annotations = c.metadata.annotations
  | [], _ => rfl
  | (key, value) :: rest, c =>
      (annotations_setLabels rest _).trans (annotations_setLabel c key value)

/-! ## The owning definition -/

/-- A record carries all five labels of a definition. -/
structure Carries (c : Composition) (d : Definition) : Prop where
  name : c.metadata.labels.get? "krateo.io/composition-definition-name" = some d.name
  namespaceName :
    c.metadata.labels.get? "krateo.io/composition-definition-namespace" = some d.namespaceName
  group : c.metadata.labels.get? "krateo.io/composition-definition-group" = some d.resource.group
  version :
    c.metadata.labels.get? "krateo.io/composition-definition-version" = some d.resource.version
  resource :
    c.metadata.labels.get? "krateo.io/composition-definition-resource" = some d.resource.resource

/-- The labels that are stamped are those that a record has to carry. -/
theorem carries_iff {d : Definition} : c.Carries d ↔
    ∀ row ∈ definitionLabels d, c.metadata.labels.get? row.1 = some row.2 := by
  simp only [definitionLabels, List.forall_mem_cons, List.not_mem_nil, false_imp_iff,
    implies_true, and_true]
  constructor
  · rintro ⟨hname, hnamespace, hgroup, hversion, hresource⟩
    exact ⟨hname, hnamespace, hgroup, hversion, hresource⟩
  · rintro ⟨hname, hnamespace, hgroup, hversion, hresource⟩
    exact ⟨hname, hnamespace, hgroup, hversion, hresource⟩

instance (c : Composition) (d : Definition) : Decidable (c.Carries d) :=
  decidable_of_iff _ carries_iff.symm

theorem carries_congr {d : Composition} {definition : Definition}
    (h : d.metadata.labels = c.metadata.labels) :
    d.Carries definition ↔ c.Carries definition := by
  rw [carries_iff, carries_iff, h]

theorem carries_setDefinition (c : Composition) (d : Definition) :
    (c.setDefinition d).1.Carries d := by
  refine carries_iff.mpr fun row hrow => ?_
  have hkeys : ((definitionLabels d).map Prod.fst).Nodup := by
    simp [definitionLabels]
  exact get?_setLabels_of_mem _ c hkeys hrow

theorem get?_setDefinition_releaseName (c : Composition) (d : Definition) :
    (c.setDefinition d).1.metadata.labels.get? releaseNameLabel =
      c.metadata.labels.get? releaseNameLabel := by
  refine get?_setLabels_of_not_mem _ c ?_
  simp [definitionLabels, releaseNameLabel]

/-- Naming a record neither sets nor changes a label of the definition. -/
theorem carries_setReleaseName {name : String} {d : Definition} :
    (c.setReleaseName name).1.Carries d ↔ c.Carries d := by
  have hother : ∀ row ∈ definitionLabels d, row.1 ≠ releaseNameLabel := by
    simp [definitionLabels, releaseNameLabel]
  rw [carries_iff, carries_iff]
  constructor
  · intro h row hrow
    rw [← get?_setLabel_of_ne (hother row hrow) c name]
    exact h row hrow
  · intro h row hrow
    unfold setReleaseName
    rw [get?_setLabel_of_ne (hother row hrow)]
    exact h row hrow

theorem eq_of_setDefinition {d : Definition} (h : (c.setDefinition d).2 = false) :
    (c.setDefinition d).1 = c :=
  eq_of_setLabels h

theorem not_changed_setDefinition {d : Definition} (h : c.Carries d) :
    (c.setDefinition d).2 = false :=
  not_changed_setLabels (carries_iff.mp h)

theorem alike_setDefinition (c : Composition) (d : Definition) :
    Alike c (c.setDefinition d).1 := by
  refine alike_setLabels ?_
  simp [definitionLabels, releaseNameLabel]

theorem status_setDefinition (c : Composition) (d : Definition) :
    (c.setDefinition d).1.status = c.status :=
  status_setLabels _ c

/-! ## The release name -/

theorem eq_of_setReleaseName {name : String} (h : (c.setReleaseName name).2 = false) :
    (c.setReleaseName name).1 = c :=
  eq_of_setLabel h

theorem releaseName_of_isEmpty (h : c.releaseName.isEmpty = true) :
    c.releaseName = String.ofList (deriveReleaseName c.name.toList c.uid.toList) := by
  unfold releaseName releaseName? at h ⊢
  cases hlabel : c.metadata.labels.get? releaseNameLabel with
  | none => rfl
  | some name =>
      by_cases hname : name.isEmpty = true
      · simp [hname]
      · simp [hlabel, hname] at h

/-- A release name that was kept is the release name. One that is empty is not kept, and then
the derived one is empty too. -/
theorem alike_setReleaseName (c : Composition) : Alike c (c.setReleaseName c.releaseName).1 := by
  unfold setReleaseName setLabel
  by_cases hset : c.metadata.labels.get? releaseNameLabel = some c.releaseName
  · rw [if_pos hset]
    exact Alike.refl c
  · rw [if_neg hset]
    refine ⟨rfl, rfl, rfl, rfl, rfl, rfl, rfl, ?_, rfl⟩
    have hkept : (c.withLabel releaseNameLabel c.releaseName).releaseName? =
        if c.releaseName.isEmpty then none else some c.releaseName := by
      unfold releaseName?
      rw [show (c.withLabel releaseNameLabel c.releaseName).metadata.labels.get?
        releaseNameLabel = some c.releaseName from Table.get?_insert_self _ _ _]
    rw [releaseName_eq_getD, hkept]
    by_cases hempty : c.releaseName.isEmpty = true
    · rw [if_pos hempty]
      exact (releaseName_of_isEmpty hempty).symm
    · rw [if_neg hempty]
      rfl

theorem status_setReleaseName (c : Composition) (name : String) :
    (c.setReleaseName name).1.status = c.status :=
  status_setLabel c _ name

end Chartkeeper.Composition
