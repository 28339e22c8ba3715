import Mathlib.Data.List.Basic
import Mathlib.Data.List.Induction
import Chartkeeper.Proofs.Composition.Status
/-!
# The history of readiness

A new composition says nothing about its readiness. From then on it is written by status writes and
by single conditions, in any order. Three rules work together there: a status write passes over a
condition whose reason and message are recorded already, a condition takes the place of the one of
its type, and it keeps the time of the one before if the verdict is the same. Since the reason
settles type and verdict, there is always one condition, it says what was asked for last, and its
time is that of the write with which the verdict came.

- `Status.conditions_perform`: what one write leaves, in terms of the condition before.
- `Status.readiness_of_history`: what a history of writes leaves.
-/

namespace Chartkeeper

/-! ## What takes the place of a condition -/

namespace Condition

/-- A condition as it is kept after another one, or after none. -/
def following (c : Condition) : Option Condition → Condition
  | some old => { c with since := if old.verdict = c.verdict then old.since else c.since }
  | none => c

variable {c old : Condition} {old? : Option Condition}

theorem equivalent_following : (c.following old?).equivalent c = true := by
  cases old? <;> simp [following, equivalent]

theorem following_of_verdict (h : old.verdict = c.verdict) :
    c.following (some old) = { c with since := old.since } :=
  congrArg (fun since => { c with since }) (if_pos h)

theorem following_of_verdict_ne (h : old.verdict ≠ c.verdict) : c.following (some old) = c :=
  congrArg (fun since => { c with since }) (if_neg h)

/-- What says the same stays as it is. -/
theorem following_of_eq (h : old = { c with since := old.since }) : c.following (some old) = old := by
  have hverdict : old.verdict = c.verdict := by rw [h]
  rw [following_of_verdict hverdict, ← h]

theorem write_toList (h : ∀ old ∈ old?, old.type = c.type) :
    (c.write old?.toList).1 = [c.following old?] := by
  cases old? with
  | none => rfl
  | some old =>
      simp only [Option.toList, write, if_pos (h old rfl)]
      by_cases hsame : old.equivalent c = true
      · rw [if_pos hsame, following_of_eq (eq_of_equivalent hsame)]
      · rw [if_neg hsame]
        rfl

/-- Type, verdict and reason are what tells that a condition was issued. -/
theorem issued_iff : c.Issued ↔ c.type = readyType ∧ (c.verdict, c.reason) ∈
    [(.yes, availableReason), (.no, unavailableReason), (.no, pausedReason)] := by
  simp only [List.mem_cons, List.not_mem_nil, or_false, Prod.mk.injEq]
  constructor
  · rintro ⟨message, since, rfl | rfl | rfl⟩
    · exact ⟨rfl, Or.inl ⟨rfl, rfl⟩⟩
    · exact ⟨rfl, Or.inr (Or.inl ⟨rfl, rfl⟩)⟩
    · exact ⟨rfl, Or.inr (Or.inr ⟨rfl, rfl⟩)⟩
  · obtain ⟨type, verdict, reason, message, since⟩ := c
    rintro ⟨rfl, ⟨rfl, rfl⟩ | ⟨rfl, rfl⟩ | ⟨rfl, rfl⟩⟩
    · exact ⟨message, since, Or.inl rfl⟩
    · exact ⟨message, since, Or.inr (Or.inl rfl)⟩
    · exact ⟨message, since, Or.inr (Or.inr rfl)⟩

theorem Issued.type_eq (h : c.Issued) : c.type = readyType :=
  (issued_iff.mp h).1

theorem Issued.following (h : c.Issued) : (c.following old?).Issued := by
  rw [issued_iff] at h ⊢
  cases old? <;> exact h

end Condition

/-! ## Histories -/

/-- A write that says something about the readiness of a composition. -/
inductive ReadinessWrite where
  | status (w : StatusWrite)
  | available (message : String)
  | unavailable (message : String)
  | paused (message : String)

namespace ReadinessWrite

/-- The condition that a write asks for. -/
def condition (now : Instant) : ReadinessWrite → Condition
  | .status w => w.condition now
  | .available message => .available message now
  | .unavailable message => .unavailable message now
  | .paused message => .paused message now

/-- What a write makes of a status. -/
def perform (s : Status) (now : Instant) : ReadinessWrite → Status
  | .status w => (s.apply w now).1
  | write => (s.setCondition (write.condition now)).1

theorem issued_condition (write : ReadinessWrite) (now : Instant) :
    (write.condition now).Issued := by
  cases write with
  | status w => exact w.issued_condition now
  | available message => exact ⟨message, now, Or.inl rfl⟩
  | unavailable message => exact ⟨message, now, Or.inr (Or.inl rfl)⟩
  | paused message => exact ⟨message, now, Or.inr (Or.inr rfl)⟩

theorem since_condition (write : ReadinessWrite) (now : Instant) :
    (write.condition now).since = now := by
  cases write with
  | status w => exact congrArg Condition.since (w.condition_since now now)
  | available | unavailable | paused => rfl

end ReadinessWrite

namespace Status

/-- What a history of writes, each with what the clock shows, leaves of a status that was empty. -/
def after (history : List (ReadinessWrite × Instant)) : Status :=
  history.foldl (fun s write => write.1.perform s write.2) empty

/-- The verdict on readiness, if there is one. -/
def verdict? (s : Status) : Option Verdict :=
  (s.condition? Condition.readyType).map Condition.verdict

variable {s : Status} {c : Condition} {history : List (ReadinessWrite × Instant)}
  {write : ReadinessWrite × Instant} {v : Verdict} {t : Instant}

theorem after_snoc (history : List (ReadinessWrite × Instant)) (write : ReadinessWrite × Instant) :
    after (history ++ [write]) = write.1.perform (after history) write.2 := by
  unfold after
  rw [List.foldl_append]
  rfl

/-- A write that was passed over would have left the condition as it is. -/
theorem following_of_isRecorded {old c : Condition} (hold : old.Issued) (hc : c.Issued)
    (hs : s.conditions = [old]) (h : StatusWrite.isRecorded c s = true) :
    c.following (some old) = old := by
  unfold StatusWrite.isRecorded condition? at h
  rw [hs, List.find?_cons_of_pos (by rw [hold.type_eq, beq_self_eq_true])] at h
  simp only [Bool.and_eq_true, beq_iff_eq] at h
  exact Condition.following_of_eq (hold.eq_of_reason hc h.1 h.2)

/-- One write, of whichever kind, leaves the condition that it asks for, and no other. -/
theorem conditions_perform {old? : Option Condition} (write : ReadinessWrite) (now : Instant)
    (hs : s.conditions = old?.toList) (hissued : ∀ old ∈ old?, old.Issued) :
    (write.perform s now).conditions = [(write.condition now).following old?] := by
  have htypes : ∀ old ∈ old?, old.type = (write.condition now).type := fun old hold =>
    (hissued old hold).type_eq.trans (write.issued_condition now).type_eq.symm
  have hwritten := Condition.write_toList htypes
  rw [← hs] at hwritten
  cases write with
  | status w =>
      refine (conditions_apply s w now).trans ?_
      by_cases hwrite : (w.force || !StatusWrite.isRecorded (w.condition now) s) = true
      · rw [if_pos hwrite]
        exact hwritten
      · rw [if_neg hwrite, hs]
        rw [Bool.not_eq_true, Bool.or_eq_false_iff, Bool.not_eq_false'] at hwrite
        cases old? with
        | none =>
            have hrecorded := hwrite.2
            unfold StatusWrite.isRecorded condition? at hrecorded
            rw [hs] at hrecorded
            exact nomatch hrecorded
        | some old =>
            exact congrArg (fun c => [c]) (following_of_isRecorded (hissued old rfl)
              (w.issued_condition now) hs hwrite.2).symm
  | available | unavailable | paused => exact hwritten

/-! ## Since when -/

/-- A verdict came with a write: before it there was another one or none, and since then there is
this one, after each further write. -/
def CameAt (history : List (ReadinessWrite × Instant)) (v : Verdict) (t : Instant) : Prop :=
  ∃ before write later, history = before ++ (write, t) :: later ∧
    (after before).verdict? ≠ some v ∧
    ∀ part, part <+: later → (after (before ++ (write, t) :: part)).verdict? = some v

theorem CameAt.last {write : ReadinessWrite} (hbefore : (after history).verdict? ≠ some v)
    (hafter : (after (history ++ [(write, t)])).verdict? = some v) :
    CameAt (history ++ [(write, t)]) v t := by
  refine ⟨history, write, [], rfl, hbefore, fun part hpart => ?_⟩
  rw [List.prefix_nil.mp hpart]
  exact hafter

theorem CameAt.snoc (h : CameAt history v t)
    (hafter : (after (history ++ [write])).verdict? = some v) :
    CameAt (history ++ [write]) v t := by
  obtain ⟨before, first, later, rfl, hbefore, hsince⟩ := h
  refine ⟨before, first, later ++ [write], by simp, hbefore, fun part hpart => ?_⟩
  rcases List.prefix_concat_iff.mp hpart with rfl | hpart
  · simpa using hafter
  · exact hsince part hpart

/-- A history has left a condition, issued as it is and with the right time, or none. -/
structure Reflects (history : List (ReadinessWrite × Instant)) (c? : Option Condition) : Prop where
  conditions : (after history).conditions = c?.toList
  issued : ∀ c ∈ c?, c.Issued
  since : ∀ c ∈ c?, CameAt history c.verdict c.since

theorem reflects_nil : Reflects [] none :=
  ⟨rfl, nofun, nofun⟩

theorem verdict?_after {c? : Option Condition} (hs : (after history).conditions = c?.toList)
    (hissued : ∀ c ∈ c?, c.Issued) : (after history).verdict? = c?.map Condition.verdict := by
  unfold verdict? condition?
  rw [hs]
  cases c? with
  | none => rfl
  | some c =>
      rw [Option.toList, List.find?_cons_of_pos (by rw [(hissued c rfl).type_eq, beq_self_eq_true])]

/-- One more write. The verdict stays, and its time with it, or it comes with this write. -/
theorem Reflects.snoc {old? : Option Condition} (h : Reflects history old?)
    (write : ReadinessWrite × Instant) :
    Reflects (history ++ [write]) (some ((write.1.condition write.2).following old?)) := by
  have hissued : ((write.1.condition write.2).following old?).Issued :=
    (write.1.issued_condition write.2).following
  have hleft := conditions_perform write.1 write.2 h.conditions h.issued
  rw [← after_snoc] at hleft
  have hverdict := verdict?_after hleft fun _ hc => Option.some.inj hc ▸ hissued
  refine ⟨hleft, fun _ hc => Option.some.inj hc ▸ hissued, fun _ hc => Option.some.inj hc ▸ ?_⟩
  have hbefore := verdict?_after h.conditions h.issued
  generalize hasked : write.1.condition write.2 = asked at *
  have hnow : asked.since = write.2 := by rw [← hasked, write.1.since_condition]
  have hnew : (after history).verdict? ≠ some asked.verdict → asked.following old? = asked →
      CameAt (history ++ [write]) (asked.following old?).verdict (asked.following old?).since := by
    intro hother hfollowing
    rw [hfollowing] at hverdict ⊢
    rw [hnow]
    exact CameAt.last hother hverdict
  cases old? with
  | none => exact hnew (by rw [hbefore]; nofun) rfl
  | some old =>
      by_cases hsame : old.verdict = asked.verdict
      · rw [Condition.following_of_verdict hsame] at hverdict ⊢
        exact CameAt.snoc (hsame ▸ h.since old rfl) hverdict
      · refine hnew ?_ (Condition.following_of_verdict_ne hsame)
        rw [hbefore]
        exact mt Option.some.inj hsame

theorem exists_reflects (history : List (ReadinessWrite × Instant)) :
    ∃ c?, Reflects history c? := by
  induction history using List.reverseRecOn with
  | nil => exact ⟨none, reflects_nil⟩
  | append_singleton history write ih =>
      obtain ⟨old?, hold⟩ := ih
      exact ⟨_, hold.snoc write⟩

/-- **The history of readiness.** Whatever is written to a new status, and whenever: before the first
write it has no condition, and after it just one, of type `Ready`, with one of three verdicts and
reasons. That condition says what the latest write asked for, even if that write was passed over as
recorded already, and its time is that of the write with which its verdict came. -/
theorem readiness_of_history (history : List (ReadinessWrite × Instant)) :
    history = [] ∧ (after history).conditions = [] ∨
    ∃ last c, history.getLast? = some last ∧ (after history).conditions = [c] ∧
      c.type = Condition.readyType ∧
      (c.verdict, c.reason) ∈ [(.yes, Condition.availableReason),
        (.no, Condition.unavailableReason), (.no, Condition.pausedReason)] ∧
      c.equivalent (last.1.condition last.2) = true ∧
      CameAt history c.verdict c.since := by
  rcases List.eq_nil_or_concat' history with rfl | ⟨earlier, write, rfl⟩
  · exact Or.inl ⟨rfl, rfl⟩
  · obtain ⟨old?, hold⟩ := exists_reflects earlier
    have hleft := hold.snoc write
    obtain ⟨htype, hkind⟩ := Condition.issued_iff.mp (hleft.issued _ rfl)
    exact Or.inr ⟨write, _, List.getLast?_concat, hleft.conditions, htype, hkind,
      Condition.equivalent_following, hleft.since _ rfl⟩

/-- From unavailable to paused the verdict stays, and so does its time. -/
example : (after [(.unavailable "boom", ⟨1, 0⟩), (.status .paused, ⟨2, 0⟩)]).conditions =
    [.paused StatusWrite.pausedMessage ⟨1, 0⟩] := by
  decide +kernel

end Status

end Chartkeeper
