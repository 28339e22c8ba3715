import Chartkeeper.Proofs.Fault
import Chartkeeper.Proofs.Text.Lookup
import Chartkeeper.Release.Backend
/-!
# What the operations of a package manager do

One lemma for each operation says all that it did when it succeeded, in terms of the histories
before and after, and what it takes to succeed when nothing makes it fail. Whatever an operation
answers, the package manager stays prepared as it is, and its charts render to what they did.
-/

namespace Chartkeeper

/-- A release as it is, whatever its revision. -/
def Release.unnumbered (r : Release) : Release :=
  { r with revision := 0 }

end Chartkeeper

namespace Chartkeeper.Backend

variable {b b' : Backend} {key : ReleaseKey} {url : String} {action : Action} {limit : Nat}

/-! ## Histories -/

theorem current?_eq_of_histories (h : b'.histories = b.histories) (key : ReleaseKey) :
    b'.current? key = b.current? key := by
  unfold current? history
  rw [h]

theorem current?_of_histories_insert {releases : List Release}
    (h : b'.histories = b.histories.insert key releases) :
    b'.current? key = releases.getLast? := by
  unfold current? history
  rw [h, Assoc.get?_insert_self, Option.getD_some]

/-- Trimming keeps the newest release, whatever the limit. -/
theorem getLast?_trim_append (limit : Nat) (releases : List Release) (newest : Release) :
    (trim limit (releases ++ [newest])).getLast? = some newest := by
  unfold trim
  by_cases h : limit = 0
  · rw [if_pos h, List.getLast?_concat]
  · rw [if_neg h, List.getLast?_drop, if_neg, List.getLast?_concat]
    rw [List.length_append, List.length_singleton]
    omega

theorem getLast?_takeOver (limit : Nat) (releases : List Release) (next : Release) :
    (takeOver limit releases next).getLast? = some next :=
  getLast?_trim_append limit _ next

/-! ## Rendering -/

/-- What a chart renders to depends on the charts alone. -/
theorem render_eq_of_charts (h : b'.charts = b.charts) :
    b'.render key url action = b.render key url action := by
  unfold render
  rw [h]

/-- What a chart renders to is a deployed release of the given name, at its first revision. -/
theorem deployed_of_render {release : Release} (h : b.render key url action = .ok release) :
    ∃ chartName version manifest, release = .deployed key chartName version manifest := by
  unfold render at h
  split at h
  · exact nomatch h
  · dsimp only at h
    split at h <;>
    · obtain ⟨manifest, -, h⟩ := Fault.bind_eq_ok.mp h
      exact ⟨_, _, manifest, (Fault.pure_eq_ok.mp h).symm⟩

/-- A rendered release is a deployed one. -/
theorem status_of_render {release : Release} (h : b.render key url action = .ok release) :
    release.status = .deployed := by
  obtain ⟨_, _, _, rfl⟩ := deployed_of_render h
  rfl

/-! ## The operations -/

/-- How a package manager was prepared: its charts, and what makes its operations fail. -/
def setup (b : Backend) : Assoc String Chart × Assoc Operation String :=
  (b.charts, b.failures)

/-- What an operation does: a package manager stays prepared as it is, an operation that fails
changes no history, and one that succeeds does to the histories what is said. -/
structure Acts {α : Type} (b : Backend) (did : α → Assoc ReleaseKey (List Release) → Prop)
    (r : Except Fault α × Backend) : Prop where
  setup : r.2.setup = b.setup
  kept : ∀ fault, r.1 = .error fault → r.2.histories = b.histories
  changed : ∀ a, r.1 = .ok a → did a r.2.histories

variable {α : Type} {did : α → Assoc ReleaseKey (List Release) → Prop}
  {r : Except Fault α × Backend}

theorem acts_error {fault : Fault} (hsetup : b'.setup = b.setup)
    (hsame : b'.histories = b.histories) : Acts b did (.error fault, b') :=
  ⟨hsetup, fun _ _ => hsame, nofun⟩

theorem acts_ok {a : α} (hsetup : b'.setup = b.setup) (hdid : did a b'.histories) :
    Acts b did (.ok a, b') := by
  refine ⟨hsetup, nofun, fun a' ha => ?_⟩
  rw [← Except.ok.inj ha]
  exact hdid

theorem Acts.of_ok {a : α} (h : Acts b did (.ok a, b')) : did a b'.histories :=
  h.changed a rfl

theorem Acts.of_error {fault : Fault} (h : Acts b did (.error fault, b')) :
    b'.histories = b.histories :=
  h.kept fault rfl

/-- What holds of the histories before, and of whatever an operation makes of them, holds after. -/
theorem Acts.holds {P : Assoc ReleaseKey (List Release) → Prop} (h : Acts b did r)
    (hbefore : P b.histories) (hdid : ∀ a t, did a t → P t) : P r.2.histories := by
  cases hresult : r.1 with
  | error fault => exact h.kept fault hresult ▸ hbefore
  | ok a => exact hdid a _ (h.changed a hresult)

/-- Noting a call changes nothing else. An operation that is to fail goes no further. -/
theorem check_cases (b : Backend) (op : Operation) :
    (∃ fault, b.check op = (.error fault, { b with calls := b.calls ++ [op] })) ∨
      b.check op = (.ok (), { b with calls := b.calls ++ [op] }) := by
  unfold check
  cases b.failures.get? op with
  | some reason => exact Or.inl ⟨_, rfl⟩
  | none => exact Or.inr rfl

theorem acts_get (b : Backend) (key : ReleaseKey) :
    Acts b (fun found t => found = b.current? key ∧ t = b.histories) (b.get key) := by
  unfold get
  rcases b.check_cases .get with ⟨fault, hcheck⟩ | hcheck
  · rw [hcheck]
    exact acts_error rfl rfl
  · rw [hcheck]
    exact acts_ok rfl ⟨rfl, rfl⟩

theorem acts_install (b : Backend) (key : ReleaseKey) (url : String) (action : Action) :
    Acts b (fun release t => b.render key url action = .ok release ∧ b.current? key = none ∧
      t = b.histories.insert key [release]) (b.install key url action) := by
  unfold install
  cases hrender : b.render key url action with
  | error fault => exact acts_error rfl rfl
  | ok release =>
    rcases b.check_cases .install with ⟨fault, hcheck⟩ | hcheck
    · rw [hcheck]
      exact acts_error rfl rfl
    · rw [hcheck]
      dsimp only
      split
      · exact acts_error rfl rfl
      · rename_i hcurrent
        exact acts_ok rfl ⟨rfl, Option.not_isSome_iff_eq_none.mp hcurrent, rfl⟩

theorem acts_upgrade (b : Backend) (key : ReleaseKey) (url : String) (action : Action)
    (limit : Nat) :
    Acts b (fun release t => ∃ rendered current, b.render key url action = .ok rendered ∧
      b.current? key = some current ∧
      release = { rendered with revision := Release.nextRevision current.revision } ∧
      t = b.histories.insert key (takeOver limit (b.history key) release))
      (b.upgrade key url action limit) := by
  unfold upgrade
  cases hrender : b.render key url action with
  | error fault => exact acts_error rfl rfl
  | ok rendered =>
    rcases b.check_cases .upgrade with ⟨fault, hcheck⟩ | hcheck
    · rw [hcheck]
      exact acts_error rfl rfl
    · rw [hcheck]
      dsimp only
      split
      · exact acts_error rfl rfl
      · rename_i current hcurrent
        exact acts_ok rfl ⟨rendered, current, rfl, hcurrent, rfl, rfl⟩

theorem acts_rollback (b : Backend) (key : ReleaseKey) (limit : Nat) :
    Acts b (fun release t => ∃ current target, b.current? key = some current ∧
      rollbackTarget? (b.history key) = some target ∧
      release = { target with
        revision := Release.nextRevision current.revision, status := .deployed } ∧
      t = b.histories.insert key (takeOver limit (b.history key) release))
      (b.rollback key limit) := by
  unfold rollback
  rcases b.check_cases .rollback with ⟨fault, hcheck⟩ | hcheck
  · rw [hcheck]
    exact acts_error rfl rfl
  · rw [hcheck]
    dsimp only
    split
    · rename_i current target hcurrent htarget
      exact acts_ok rfl ⟨current, target, hcurrent, htarget, rfl, rfl⟩
    · exact acts_error rfl rfl

/-- A release is removed with its history, unless uninstalling leaves all as it is. -/
theorem acts_uninstall (b : Backend) (key : ReleaseKey) (ignoreMissing : Bool) :
    Acts b (fun _ t => b.retains = true ∧ t = b.histories ∨
      b.retains = false ∧ ((b.histories.get? key).isSome = true ∨ ignoreMissing = true) ∧
        t = b.histories.erase key) (b.uninstall key ignoreMissing) := by
  unfold uninstall
  rcases b.check_cases .uninstall with ⟨fault, hcheck⟩ | hcheck
  · rw [hcheck]
    exact acts_error rfl rfl
  · rw [hcheck]
    dsimp only
    split
    · rename_i hretains
      exact acts_ok rfl (Or.inl ⟨hretains, rfl⟩)
    · rename_i hretains
      split
      · exact acts_error rfl rfl
      · rename_i hfound
        refine acts_ok rfl (Or.inr ⟨Bool.eq_false_iff.mpr hretains, ?_, rfl⟩)
        cases hthere : b.histories.get? key <;> simp_all

/-! ## Operations that succeed -/

/-- Looking a release up changes no history, whether the look-up fails or not. -/
theorem histories_get (b : Backend) (key : ReleaseKey) :
    (b.get key).2.histories = b.histories :=
  (acts_get b key).holds (P := (· = b.histories)) rfl fun _ _ h => h.2

theorem get_ok {found : Option Release} (h : b.get key = (.ok found, b')) :
    found = b.current? key :=
  (h ▸ acts_get b key).of_ok.1

theorem install_ok {release : Release} (h : b.install key url action = (.ok release, b')) :
    b.render key url action = .ok release ∧ b.current? key = none ∧
      b'.histories = b.histories.insert key [release] :=
  (h ▸ acts_install b key url action).of_ok

theorem upgrade_ok {release : Release} (h : b.upgrade key url action limit = (.ok release, b')) :
    ∃ rendered current, b.render key url action = .ok rendered ∧ b.current? key = some current ∧
      release = { rendered with revision := Release.nextRevision current.revision } ∧
      b'.histories = b.histories.insert key (takeOver limit (b.history key) release) :=
  (h ▸ acts_upgrade b key url action limit).of_ok

theorem rollback_ok {release : Release} (h : b.rollback key limit = (.ok release, b')) :
    ∃ current target, b.current? key = some current ∧
      rollbackTarget? (b.history key) = some target ∧
      release = { target with
        revision := Release.nextRevision current.revision, status := .deployed } ∧
      b'.histories = b.histories.insert key (takeOver limit (b.history key) release) :=
  (h ▸ acts_rollback b key limit).of_ok

/-- Without a reason to fail, an operation goes ahead. -/
theorem check_of_calm (h : b.failures = []) (op : Operation) :
    b.check op = (.ok (), { b with calls := b.calls ++ [op] }) := by
  unfold check
  rw [h]
  rfl

theorem get_of_calm (h : b.failures = []) (key : ReleaseKey) :
    (b.get key).1 = .ok (b.current? key) := by
  unfold get
  rw [check_of_calm h]
  rfl

/-- Without a reason to fail, whatever can be rendered is installed where there is no release. -/
theorem install_of_calm {rendered : Release} (h : b.failures = [])
    (hrender : b.render key url action = .ok rendered) (hnone : b.current? key = none) :
    ∃ r, (b.install key url action).1 = .ok r := by
  unfold install
  rw [hrender, check_of_calm h]
  have hunused : { b with calls := b.calls ++ [Operation.install] }.current? key = none := hnone
  dsimp only
  rw [hunused, if_neg nofun]
  exact ⟨rendered, rfl⟩

theorem upgrade_of_calm {rendered current : Release} (h : b.failures = [])
    (hrender : b.render key url action = .ok rendered) (hcurrent : b.current? key = some current) :
    ∃ r, (b.upgrade key url action limit).1 = .ok r := by
  unfold upgrade
  rw [hrender, check_of_calm h]
  have hfound : { b with calls := b.calls ++ [Operation.upgrade] }.current? key = some current := hcurrent
  dsimp only
  rw [hfound]
  exact ⟨_, rfl⟩

/-- Whatever has a current release has one to go back to. -/
theorem exists_rollbackTarget? {releases : List Release} {current : Release}
    (h : releases.getLast? = some current) : ∃ target, rollbackTarget? releases = some target := by
  rw [← List.head?_reverse] at h
  unfold rollbackTarget?
  match releases.reverse, h with
  | [_], _ | _ :: _ :: _, _ => exact ⟨_, rfl⟩

theorem rollback_of_calm {current : Release} (h : b.failures = [])
    (hcurrent : b.current? key = some current) : ∃ r, (b.rollback key limit).1 = .ok r := by
  obtain ⟨target, htarget⟩ := exists_rollbackTarget? hcurrent
  let noted : Backend := { b with calls := b.calls ++ [.rollback] }
  have hfound : noted.current? key = some current := hcurrent
  have hback : rollbackTarget? (noted.history key) = some target := htarget
  unfold rollback
  rw [check_of_calm h]
  dsimp only
  rw [hfound, hback]
  exact ⟨_, rfl⟩

/-! ## Releases that stay -/

/-- An installation that fails changes no history. -/
theorem install_error {fault : Fault} (h : b.install key url action = (.error fault, b')) :
    b'.histories = b.histories :=
  (h ▸ acts_install b key url action).of_error

/-- An upgrade that fails changes no history. -/
theorem upgrade_error {fault : Fault}
    (h : b.upgrade key url action limit = (.error fault, b')) : b'.histories = b.histories :=
  (h ▸ acts_upgrade b key url action limit).of_error

/-- Every release that is there before is there after. -/
def Stay (b b' : Backend) : Prop :=
  ∀ key, (b.current? key).isSome = true → (b'.current? key).isSome = true

theorem stay_of_histories (h : b'.histories = b.histories) : b.Stay b' := by
  intro key hkey
  rw [current?_eq_of_histories h]
  exact hkey

theorem stay_of_insert {releases : List Release} {r : Release}
    (h : b'.histories = b.histories.insert key releases) (hlast : releases.getLast? = some r) :
    b.Stay b' := by
  intro other hother
  by_cases heq : other = key
  · rw [heq, current?_of_histories_insert h, hlast]
    rfl
  · unfold current? history at hother ⊢
    rw [h, Assoc.get?_insert_of_ne heq]
    exact hother

/-- An operation that gives a release a new history, and not an empty one, removes no release. -/
theorem Acts.stay (h : Acts b did r) (hdid : ∀ a t, did a t → ∃ key releases newest,
    t = b.histories.insert key releases ∧ releases.getLast? = some newest) : b.Stay r.2 := by
  cases hresult : r.1 with
  | error fault => exact stay_of_histories (h.kept fault hresult)
  | ok a =>
      obtain ⟨_, _, _, hinsert, hlast⟩ := hdid a _ (h.changed a hresult)
      exact stay_of_insert hinsert hlast

theorem stay_upgrade (b : Backend) (key : ReleaseKey) (url : String) (action : Action)
    (limit : Nat) : b.Stay (b.upgrade key url action limit).2 := by
  refine (acts_upgrade b key url action limit).stay ?_
  rintro release _ ⟨_, _, -, -, -, rfl⟩
  exact ⟨key, _, release, rfl, getLast?_takeOver limit _ release⟩

theorem stay_rollback (b : Backend) (key : ReleaseKey) (limit : Nat) :
    b.Stay (b.rollback key limit).2 := by
  refine (acts_rollback b key limit).stay ?_
  rintro release _ ⟨_, _, -, -, -, rfl⟩
  exact ⟨key, _, release, rfl, getLast?_takeOver limit _ release⟩

/-! ## Other releases -/

variable {other : ReleaseKey}

/-- An operation that does nothing to the history of a release leaves it, whether it fails or not. -/
theorem Acts.history_eq (h : Acts b did r)
    (hdid : ∀ a t, did a t → t.get? other = b.histories.get? other) :
    r.2.history other = b.history other := by
  have hsame := h.holds (P := fun t => t.get? other = b.histories.get? other) rfl hdid
  unfold history
  rw [hsame]

theorem history_install_of_ne (h : other ≠ key) (b : Backend) (url : String) (action : Action) :
    (b.install key url action).2.history other = b.history other := by
  refine (acts_install b key url action).history_eq ?_
  rintro release _ ⟨-, -, rfl⟩
  exact Assoc.get?_insert_of_ne h _ _

theorem history_upgrade_of_ne (h : other ≠ key) (b : Backend) (url : String) (action : Action)
    (limit : Nat) : (b.upgrade key url action limit).2.history other = b.history other := by
  refine (acts_upgrade b key url action limit).history_eq ?_
  rintro release _ ⟨_, _, -, -, -, rfl⟩
  exact Assoc.get?_insert_of_ne h _ _

theorem history_rollback_of_ne (h : other ≠ key) (b : Backend) (limit : Nat) :
    (b.rollback key limit).2.history other = b.history other := by
  refine (acts_rollback b key limit).history_eq ?_
  rintro release _ ⟨_, _, -, -, -, rfl⟩
  exact Assoc.get?_insert_of_ne h _ _

theorem history_uninstall_of_ne (h : other ≠ key) (b : Backend) (ignoreMissing : Bool) :
    (b.uninstall key ignoreMissing).2.history other = b.history other := by
  refine (acts_uninstall b key ignoreMissing).history_eq ?_
  rintro _ _ (⟨-, rfl⟩ | ⟨-, -, rfl⟩)
  · rfl
  · exact Assoc.get?_erase_of_ne h _

end Chartkeeper.Backend
