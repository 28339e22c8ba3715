import Chartkeeper.Composition.Status
/-!
# What a status write records

A status write sets the digests and the chart in any case. What it reports is the truth: it reports
no change exactly when the status is the very same as before. Writing the same again changes nothing,
whatever the clock shows then, and when a write is made shows in nothing but the times of the
conditions.
-/

namespace Chartkeeper

namespace Condition

/-- What a condition says, whenever it said it. -/
def untimed (c : Condition) : Condition :=
  { c with since := default }

theorem eq_of_equivalent {old c : Condition} (h : old.equivalent c = true) :
    old = { c with since := old.since } := by
  simp only [equivalent, Bool.and_eq_true, beq_iff_eq] at h
  obtain ⟨⟨⟨htype, hverdict⟩, hreason⟩, hmessage⟩ := h
  rw [← htype, ← hverdict, ← hreason, ← hmessage]

/-- A condition list is reported unchanged exactly when it is the same list. What replaces a condition
says something else. -/
theorem write_unchanged_iff {c : Condition} : ∀ {conditions : List Condition},
    (c.write conditions).2 = false ↔ (c.write conditions).1 = conditions
  | [] => by simp [write]
  | old :: rest => by
      unfold write
      by_cases htype : old.type = c.type
      · rw [if_pos htype]
        by_cases hsame : old.equivalent c = true
        · rw [if_pos hsame]
          exact ⟨fun _ => rfl, fun _ => rfl⟩
        · rw [if_neg hsame]
          refine ⟨nofun, fun hlist => absurd ?_ hsame⟩
          rw [← List.head_eq_of_cons_eq hlist]
          simp [equivalent]
      · rw [if_neg htype]
        simpa using write_unchanged_iff

/-- The first condition of its type says what was written last. -/
theorem find?_write (c : Condition) : ∀ conditions : List Condition,
    ∃ t, (c.write conditions).1.find? (fun old => old.type == c.type) = some { c with since := t }
  | [] => ⟨c.since, by simp [write]⟩
  | old :: rest => by
      unfold write
      by_cases htype : old.type = c.type
      · rw [if_pos htype]
        by_cases hsame : old.equivalent c = true
        · refine ⟨old.since, ?_⟩
          rw [if_pos hsame, ← eq_of_equivalent hsame]
          exact List.find?_cons_of_pos (by rw [htype, beq_self_eq_true])
        · rw [if_neg hsame]
          exact ⟨_, List.find?_cons_of_pos (beq_self_eq_true c.type)⟩
      · obtain ⟨t, ht⟩ := find?_write c rest
        refine ⟨t, ?_⟩
        rw [if_neg htype, ← ht]
        simp [htype]

/-- Conditions of other types are as they were. -/
theorem filter_write (c : Condition) : ∀ conditions : List Condition,
    (c.write conditions).1.filter (fun old => old.type ≠ c.type) =
      conditions.filter (fun old => old.type ≠ c.type)
  | [] => by simp [write]
  | old :: rest => by
      unfold write
      by_cases htype : old.type = c.type
      · rw [if_pos htype]
        split <;> simp [htype]
      · rw [if_neg htype]
        simp only [List.filter_cons, filter_write c rest]

/-- To say the same again changes nothing. -/
theorem write_again (c : Condition) (t : Instant) : ∀ conditions : List Condition,
    write { c with since := t } (c.write conditions).1 = ((c.write conditions).1, false)
  | [] => by simp [write, equivalent]
  | old :: rest => by
      by_cases htype : old.type = c.type
      · by_cases hsame : old.equivalent c = true
        · have hsame' : old.equivalent { c with since := t } = true := hsame
          simp [write, htype, hsame, hsame']
        · simp only [write, if_pos htype, if_neg hsame]
          simp [equivalent]
      · simp [write, htype, write_again c t rest]

/-- When a condition is written shows in the times only. -/
theorem untimed_write (c : Condition) (t : Instant) : ∀ conditions : List Condition,
    (write { c with since := t } conditions).1.map untimed = (c.write conditions).1.map untimed
  | [] => rfl
  | old :: rest => by
      by_cases htype : old.type = c.type
      · have hsame : old.equivalent { c with since := t } = old.equivalent c := rfl
        simp only [write, if_pos htype, hsame]
        split <;> rfl
      · simp only [write, if_neg htype, List.map_cons, untimed_write c t rest]

/-- A condition as it is issued: the reason settles the type and the verdict. -/
def Issued (c : Condition) : Prop :=
  ∃ message since, c = available message since ∨ c = unavailable message since ∨
    c = paused message since

/-- Of two conditions that are issued with one reason and one message only the times can differ. -/
theorem Issued.eq_of_reason {c c' : Condition} (h : c.Issued) (h' : c'.Issued)
    (hreason : c.reason = c'.reason) (hmessage : c.message = c'.message) :
    c = { c' with since := c.since } := by
  obtain ⟨message, since, rfl | rfl | rfl⟩ := h <;>
    obtain ⟨message', since', rfl | rfl | rfl⟩ := h' <;>
    simp_all [available, unavailable, paused, availableReason, unavailableReason, pausedReason]

end Condition

namespace StatusWrite

variable (w : StatusWrite) (now later : Instant)

theorem type_condition : (w.condition now).type = Condition.readyType := by
  unfold condition
  cases w.readiness <;> rfl

theorem condition_since : w.condition later = { w.condition now with since := later } := by
  unfold condition
  cases w.readiness <;> rfl

theorem issued_condition : (w.condition now).Issued := by
  unfold condition
  cases w.readiness with
  | available => exact ⟨_, _, Or.inl rfl⟩
  | paused => exact ⟨_, _, Or.inr (Or.inr rfl)⟩

/-- Whether a condition is recorded already does not depend on the time. -/
theorem isRecorded_condition (s : Status) :
    isRecorded (w.condition later) s = isRecorded (w.condition now) s := by
  rw [condition_since w now later]
  rfl

end StatusWrite

namespace Status

variable (s : Status) (w : StatusWrite) (now : Instant)

@[simp] theorem digest_apply : (s.apply w now).1.digest = w.digest := by
  unfold apply
  dsimp only
  split <;> rfl

@[simp] theorem chartUrl_apply : (s.apply w now).1.chartUrl = w.chartUrl := by
  unfold apply
  dsimp only
  split <;> rfl

@[simp] theorem chartVersion_apply : (s.apply w now).1.chartVersion = w.chartVersion := by
  unfold apply
  dsimp only
  split <;> rfl

@[simp] theorem previousDigest_apply :
    (s.apply w now).1.previousDigest = w.previousDigest := by
  unfold apply
  dsimp only
  split <;> rfl

/-- A list of managed resources is written only when there are any. -/
theorem managed_apply :
    (s.apply w now).1.managed = if w.managed.isEmpty then s.managed else w.managed := by
  unfold apply
  dsimp only
  split <;> rfl

/-- The condition is written if that is forced, or if it is not recorded already. -/
theorem conditions_apply : (s.apply w now).1.conditions =
    if w.force || !StatusWrite.isRecorded (w.condition now) s then
      ((w.condition now).write s.conditions).1
    else s.conditions := by
  unfold apply
  dsimp only
  split <;> rfl

/-- A condition that is written is recorded. -/
theorem condition?_apply_of_write
    (h : (w.force || !StatusWrite.isRecorded (w.condition now) s) = true) : ∃ t,
    (s.apply w now).1.condition? Condition.readyType = some { w.condition now with since := t } := by
  unfold condition?
  rw [conditions_apply, if_pos h, ← w.type_condition now]
  exact Condition.find?_write _ _

/-- A forced write records its condition. -/
theorem condition?_apply_of_force (h : w.force = true) : ∃ t,
    (s.apply w now).1.condition? Condition.readyType = some { w.condition now with since := t } :=
  condition?_apply_of_write s w now (by rw [h, Bool.true_or])

/-- So does any other, if the readiness before was issued by a write, too: what is recorded already
then has the verdict of its reason. -/
theorem condition?_apply_of_issued
    (h : ∀ old, s.condition? Condition.readyType = some old → old.Issued) : ∃ t,
    (s.apply w now).1.condition? Condition.readyType = some { w.condition now with since := t } := by
  by_cases hwrite : (w.force || !StatusWrite.isRecorded (w.condition now) s) = true
  · exact condition?_apply_of_write s w now hwrite
  · have hkept : (s.apply w now).1.conditions = s.conditions := by
      rw [conditions_apply, if_neg hwrite]
    rw [Bool.not_eq_true, Bool.or_eq_false_iff, Bool.not_eq_false'] at hwrite
    have hrecorded := hwrite.2
    unfold StatusWrite.isRecorded at hrecorded
    unfold condition? at h hrecorded ⊢
    rw [hkept]
    cases hready : s.conditions.find? fun c => c.type == Condition.readyType with
    | none =>
      rw [hready] at hrecorded
      exact nomatch hrecorded
    | some old =>
      rw [hready] at hrecorded
      simp only [Bool.and_eq_true, beq_iff_eq] at hrecorded
      obtain ⟨hreason, hmessage⟩ := hrecorded
      exact ⟨old.since, congrArg some
        ((h old hready).eq_of_reason (w.issued_condition now) hreason hmessage)⟩

/-- After any write the reason and the message asked for are recorded. -/
theorem isRecorded_apply : StatusWrite.isRecorded (w.condition now) (s.apply w now).1 = true := by
  by_cases hwrite : (w.force || !StatusWrite.isRecorded (w.condition now) s) = true
  · obtain ⟨t, ht⟩ := condition?_apply_of_write s w now hwrite
    unfold StatusWrite.isRecorded
    rw [ht]
    simp
  · have hkept := hwrite
    rw [Bool.not_eq_true, Bool.or_eq_false_iff, Bool.not_eq_false'] at hkept
    rw [← hkept.2]
    unfold StatusWrite.isRecorded condition?
    rw [conditions_apply, if_neg hwrite]

/-- A pause that is written right after its own write is recorded, whatever was before. -/
theorem condition?_apply_asPaused (h : w.readiness = .available) (later : Instant) : ∃ since,
    ((s.apply w now).1.apply w.asPaused later).1.condition? Condition.readyType =
      some (.paused StatusWrite.pausedMessage since) := by
  have hcondition : w.asPaused.condition later = .paused StatusWrite.pausedMessage later := rfl
  -- What is recorded by then is that the record is available, so the pause is written.
  have hunrecorded :
      StatusWrite.isRecorded (w.asPaused.condition later) (s.apply w now).1 = false := by
    have hrecorded := isRecorded_apply s w now
    rw [hcondition]
    unfold StatusWrite.isRecorded at hrecorded ⊢
    cases hready : (s.apply w now).1.condition? Condition.readyType with
    | none => rfl
    | some old =>
        rw [hready] at hrecorded
        have hreason : old.reason = Condition.availableReason := by
          simp only [StatusWrite.condition, h, Bool.and_eq_true, beq_iff_eq] at hrecorded
          exact hrecorded.1
        simp [hreason, Condition.paused, Condition.pausedReason, Condition.availableReason]
  exact condition?_apply_of_write (s.apply w now).1 w.asPaused later
    (by rw [hunrecorded, Bool.not_false, Bool.or_true])

/-- To write the same again changes nothing, whatever the clock shows then. -/
theorem apply_again (later : Instant) :
    (s.apply w now).1.apply w later = ((s.apply w now).1, false) := by
  have hmanaged : (if w.managed.isEmpty then (s.apply w now).1.managed else w.managed) =
      (s.apply w now).1.managed := by
    rw [managed_apply]
    split <;> rfl
  have hrecorded := isRecorded_apply s w now
  rw [← w.isRecorded_condition now later] at hrecorded
  have hconditions := conditions_apply s w now
  generalize hs : (s.apply w now).1 = s' at hmanaged hrecorded hconditions ⊢
  have hdigest : w.digest = s'.digest := by rw [← hs, digest_apply]
  have hprevious : w.previousDigest = s'.previousDigest := by rw [← hs, previousDigest_apply]
  have hurl : w.chartUrl = s'.chartUrl := by rw [← hs, chartUrl_apply]
  have hversion : w.chartVersion = s'.chartVersion := by rw [← hs, chartVersion_apply]
  unfold apply
  simp only [hmanaged, hdigest, hprevious, hurl, hversion, hrecorded, Bool.not_true, Bool.or_false,
    bne_self_eq_false]
  -- Only a forced write comes back to a condition that is recorded, and finds it there.
  cases hforce : w.force with
  | false => rfl
  | true =>
      rw [hforce, Bool.true_or, if_pos rfl] at hconditions
      unfold setCondition
      rw [if_pos rfl, w.condition_since now later]
      simp only [hconditions, Condition.write_again]
      rw [← hconditions]
      rfl

/-- What a status says, whenever it said it. -/
def untimed (s : Status) : Status :=
  { s with conditions := s.conditions.map Condition.untimed }

/-- When a write is made shows in the times of the conditions only. -/
theorem untimed_apply (later : Instant) :
    (s.apply w later).1.untimed = (s.apply w now).1.untimed := by
  have hconditions : (s.apply w later).1.conditions.map Condition.untimed =
      (s.apply w now).1.conditions.map Condition.untimed := by
    rw [conditions_apply, conditions_apply, w.isRecorded_condition now later,
      w.condition_since now later]
    split
    · exact Condition.untimed_write _ _ _
    · rfl
  unfold untimed
  rw [hconditions, digest_apply, digest_apply, previousDigest_apply, previousDigest_apply,
    chartUrl_apply, chartUrl_apply, chartVersion_apply, chartVersion_apply, managed_apply,
    managed_apply]

variable {s w now}

/-- A status is reported unchanged exactly when it is the same status. -/
theorem apply_unchanged_iff : (s.apply w now).2 = false ↔ (s.apply w now).1 = s := by
  cases s
  unfold apply
  dsimp only
  split
  · simp only [setCondition, Bool.or_eq_false_iff, bne_eq_false_iff_eq,
      Condition.write_unchanged_iff, mk.injEq]
    constructor
    · rintro ⟨⟨⟨⟨⟨hmanaged, hprevious⟩, hdigest⟩, hurl⟩, hversion⟩, hconditions⟩
      exact ⟨hdigest, hprevious, hurl, hversion, hmanaged, hconditions⟩
    · rintro ⟨hdigest, hprevious, hurl, hversion, hmanaged, hconditions⟩
      exact ⟨⟨⟨⟨⟨hmanaged, hprevious⟩, hdigest⟩, hurl⟩, hversion⟩, hconditions⟩
  · dsimp only
    simp only [Bool.or_eq_false_iff, bne_eq_false_iff_eq, mk.injEq]
    constructor
    · rintro ⟨⟨⟨⟨hmanaged, hprevious⟩, hdigest⟩, hurl⟩, hversion⟩
      exact ⟨hdigest, hprevious, hurl, hversion, hmanaged, trivial⟩
    · rintro ⟨hdigest, hprevious, hurl, hversion, hmanaged, -⟩
      exact ⟨⟨⟨⟨hmanaged, hprevious⟩, hdigest⟩, hurl⟩, hversion⟩

/-- **A status write reports exactly whether it changed anything**, the times of the conditions
included. To write the same again changes nothing and reports so, whatever the clock shows then,
whether the condition is forced or not. -/
theorem reports_of_apply (s : Status) (w : StatusWrite) (now : Instant) :
    ((s.apply w now).2 = true ↔ (s.apply w now).1 ≠ s) ∧
      ∀ later, (s.apply w now).1.apply w later = ((s.apply w now).1, false) := by
  refine ⟨?_, s.apply_again w now⟩
  rw [← Bool.not_eq_false, apply_unchanged_iff]

end Status

end Chartkeeper
