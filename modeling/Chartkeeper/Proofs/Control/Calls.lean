import Chartkeeper.Proofs.Control.Reach
/-!
# What calls that succeed did

One lemma for each call that a controller makes of a world: what its answer says of the world
before it, and what the world after it holds. All are stated under the conduct in which any call
may fail, and so hold under the others too.
-/

namespace Chartkeeper

theorem Store.updateStatus_ok {s s' : Store} {c stored : Composition}
    (h : s.updateStatus c = (.ok stored, s')) :
    ∃ old, s.get? c.key = some old ∧ stored = { old with status := c.status } ∧
      s'.records = Assoc.insert stored.key stored s.records := by
  unfold updateStatus at h
  dsimp only at h
  split at h
  · exact nomatch (Prod.mk.inj h).1
  · split at h
    · exact nomatch (Prod.mk.inj h).1
    · rename_i old hold
      obtain ⟨hstored, hafter⟩ := Prod.mk.inj h
      obtain rfl := Except.ok.inj hstored
      rw [← hafter]
      exact ⟨old, hold, rfl, rfl⟩

theorem Store.updateStatus_error {s s' : Store} {c : Composition} {fault : Fault}
    (h : s.updateStatus c = (.error fault, s')) : s'.records = s.records := by
  unfold updateStatus at h
  dsimp only at h
  split at h
  · rw [← (Prod.mk.inj h).2]
  · split at h
    · rw [← (Prod.mk.inj h).2]
    · exact nomatch (Prod.mk.inj h).1

namespace World

variable {w w' : World}

/-- The record of a world under its own key. -/
def Stores (w : World) (c : Composition) : Prop :=
  w.store.get? c.key = some c

theorem Stores.getD {c : Composition} {key : String} (h : w.Stores c) (hkey : c.key = key)
    (default : Composition) : (w.store.get? key).getD default = c := by
  rw [← hkey, show w.store.get? c.key = some c from h]
  rfl

theorem given_ok {α : Type} {failure : Option String} {fault : String → Fault} {a b : α}
    (h : given failure fault a = .ok b) : b = a := by
  cases failure with
  | none => exact (Except.ok.inj h).symm
  | some reason => exact nomatch h

theorem onBackend_ok {α : Type} {r : Except Fault α × Backend} {a : α}
    (h : w.onBackend r = (.ok a, w')) : r = (.ok a, w'.backend) := by
  obtain ⟨hanswer, hafter⟩ := Prod.mk.inj h
  rw [← hafter]
  exact Prod.ext hanswer rfl

/-- What surrounds a controller is also what a chart renders to. -/
theorem render_eq_of_surroundings (h : w'.surroundings = w.surroundings) (key : ReleaseKey)
    (url : String) (action : Action) :
    w'.backend.render key url action = w.backend.render key url action :=
  Backend.render_eq_of_charts (congrArg Surroundings.charts h)

theorem Same.current? (h : Same .releases w w') (key : ReleaseKey) :
    w'.backend.current? key = w.backend.current? key :=
  Backend.current?_eq_of_histories h key

theorem Same.stores {c : Composition} (h : Same .records w w') (hc : w.Stores c) :
    w'.Stores c := by
  unfold Stores Store.get? at *
  rw [show w'.store.records = w.store.records from h]
  exact hc

end World

namespace Task

open World

variable {w w' : World}

/-! ## Questions -/

theorem resolve_ok {record : Composition} {package : Package}
    (h : (resolve record).Ends troubled w (.ok package) w') : package = w.package :=
  given_ok (congrArg Prod.fst (ends_ask_ok.mp h))

theorem getRelease_ok {key : ReleaseKey} {found : Option Release}
    (h : (getRelease key).Ends troubled w (.ok found) w') :
    found = w.backend.current? key :=
  Backend.get_ok (onBackend_ok (ends_ask_ok.mp h))

theorem serve_ok {kind : ApiKind} {resource : ApiResource}
    (h : (serve kind).Ends troubled w (.ok resource) w') :
    w.mapper.resource kind = .ok resource :=
  congrArg Prod.fst (ends_ask_ok.mp h)

theorem manage_ok {outlines : List Outline} {managed : List ManagedResource}
    (h : (manage outlines).Ends troubled w (.ok managed) w') :
    ManagedResource.ofOutlines w.mapper outlines = .ok managed :=
  congrArg Prod.fst (ends_ask_ok.mp h)

theorem inspect_ok {inspection : Inspection} {report : List Requirement}
    (h : (inspect inspection).Ends troubled w (.ok report) w') : report = w.report :=
  given_ok (congrArg Prod.fst (ends_ask_ok.mp h))

theorem leaves_resolve (x : Holding) (record : Composition) : Leaves x (resolve record) :=
  Program.only_ask nofun

theorem leaves_getRelease (x : Holding) (key : ReleaseKey) : Leaves x (getRelease key) :=
  Program.only_ask nofun

theorem leaves_serve (x : Holding) (kind : ApiKind) : Leaves x (serve kind) :=
  Program.only_ask nofun

theorem leaves_now (x : Holding) : Leaves x now :=
  Program.only_ask nofun

theorem inert_announce (record : Composition) (event : Event) :
    (announce record event).Only Port.Call.Inert :=
  Program.only_bind (Program.only_outcome (Program.only_ask trivial)) fun _ => Program.only_pure

theorem leaves_announce (x : Holding) (record : Composition) (event : Event) :
    Leaves x (announce record event) :=
  leaves_of_inert (inert_announce record event) x

/-- Whether anyone listens does not matter. -/
theorem sure_announce {A : Conduct Port World} (w : World) (record : Composition)
    (event : Event) : Program.Sure A w (announce record event) :=
  Program.sure_bind Program.sure_outcome fun _ _ _ => Program.sure_pure

/-! ## Releases -/

theorem install_ok {key : ReleaseKey} {url : String} {action : Action} {release : Release}
    (h : (install key url action).Ends troubled w (.ok release) w') :
    w.backend.render key url action = .ok release ∧ w.backend.current? key = none ∧
      w'.backend.current? key = some release := by
  obtain ⟨hrender, hnone, hhistories⟩ := Backend.install_ok (onBackend_ok (ends_ask_ok.mp h))
  exact ⟨hrender, hnone, Backend.current?_of_histories_insert hhistories⟩

theorem upgrade_ok {key : ReleaseKey} {url : String} {action : Action} {limit : Nat}
    {release : Release} (h : (upgrade key url action limit).Ends troubled w (.ok release) w') :
    ∃ rendered current, w.backend.render key url action = .ok rendered ∧
      w.backend.current? key = some current ∧
      release = { rendered with revision := Release.nextRevision current.revision } ∧
      w'.backend.current? key = some release := by
  obtain ⟨rendered, current, hrender, hcurrent, hrelease, hhistories⟩ :=
    Backend.upgrade_ok (onBackend_ok (ends_ask_ok.mp h))
  refine ⟨rendered, current, hrender, hcurrent, hrelease, ?_⟩
  rw [Backend.current?_of_histories_insert hhistories, Backend.getLast?_takeOver]

/-- An installation that fails, for whatever reason, leaves the releases as they are. -/
theorem install_error {key : ReleaseKey} {url : String} {action : Action} {fault : Fault}
    (h : (install key url action).Ends troubled w (.error fault) w') : Same .releases w w' := by
  rcases Program.ends_ask.mp h with heffect | ⟨-, rfl⟩
  · have heff : w.onBackend (w.backend.install key url action) = (.error fault, w') := heffect
    obtain ⟨hanswer, rfl⟩ := Prod.mk.inj heff
    exact Backend.install_error (Prod.ext hanswer rfl)
  · exact same_refl _ w'

theorem upgrade_error {key : ReleaseKey} {url : String} {action : Action} {limit : Nat}
    {fault : Fault} (h : (upgrade key url action limit).Ends troubled w (.error fault) w') :
    Same .releases w w' := by
  rcases Program.ends_ask.mp h with heffect | ⟨-, rfl⟩
  · have heff : w.onBackend (w.backend.upgrade key url action limit) = (.error fault, w') := heffect
    obtain ⟨hanswer, rfl⟩ := Prod.mk.inj heff
    exact Backend.upgrade_error (Prod.ext hanswer rfl)
  · exact same_refl _ w'

theorem rollback_ok {key : ReleaseKey} {limit : Nat} {release : Release}
    (h : (rollback key limit).Ends troubled w (.ok release) w') :
    release.status = .deployed ∧ w'.backend.current? key = some release := by
  obtain ⟨current, target, -, -, hrelease, hhistories⟩ :=
    Backend.rollback_ok (onBackend_ok (ends_ask_ok.mp h))
  refine ⟨?_, ?_⟩
  · rw [hrelease]
  · rw [Backend.current?_of_histories_insert hhistories, Backend.getLast?_takeOver]

theorem leaves_install {x : Holding} (hx : x ≠ .releases) (key : ReleaseKey) (url : String)
    (action : Action) : Leaves x (install key url action) :=
  Program.only_ask fun h => hx (Option.some.inj h).symm

theorem leaves_upgrade {x : Holding} (hx : x ≠ .releases) (key : ReleaseKey) (url : String)
    (action : Action) (limit : Nat) : Leaves x (upgrade key url action limit) :=
  Program.only_ask fun h => hx (Option.some.inj h).symm

theorem leaves_rollback {x : Holding} (hx : x ≠ .releases) (key : ReleaseKey) (limit : Nat) :
    Leaves x (rollback key limit) :=
  Program.only_ask fun h => hx (Option.some.inj h).symm

theorem leaves_uninstall {x : Holding} (hx : x ≠ .releases) (key : ReleaseKey)
    (ignoreMissing : Bool) : Leaves x (uninstall key ignoreMissing) :=
  Program.only_ask fun h => hx (Option.some.inj h).symm

/-! ## Permissions -/

theorem apply_ok {o : PermissionObject} (h : (apply o).Ends troubled w (.ok ()) w') :
    w'.cluster.objects = w.cluster.objects.insert o.reference o := by
  have heff : w.onCluster (w.cluster.apply o) = (.ok (), w') := ends_ask_ok.mp h
  unfold onCluster Cluster.apply at heff
  cases hfailure : w.cluster.failure with
  | some reason =>
      rw [hfailure] at heff
      exact nomatch (Prod.mk.inj heff).1
  | none =>
      rw [hfailure] at heff
      rw [← (Prod.mk.inj heff).2]

theorem apply_error {o : PermissionObject} {fault : Fault}
    (h : (apply o).Ends troubled w (.error fault) w') : Same .permissions w w' := by
  rcases Program.ends_ask.mp h with heffect | ⟨-, rfl⟩
  · have heff : w.onCluster (w.cluster.apply o) = (.error fault, w') := heffect
    unfold onCluster Cluster.apply at heff
    cases hfailure : w.cluster.failure with
    | some reason =>
        rw [hfailure] at heff
        rw [← (Prod.mk.inj heff).2]
        exact same_refl _ w
    | none =>
        rw [hfailure] at heff
        exact nomatch (Prod.mk.inj heff).1
  · exact same_refl _ w'

theorem delete_ok {r : Reference} (h : (delete r true).Ends troubled w (.ok ()) w') :
    w'.cluster.objects = w.cluster.objects.erase r := by
  have heff : w.onCluster (w.cluster.delete r true) = (.ok (), w') := ends_ask_ok.mp h
  unfold onCluster Cluster.delete at heff
  cases hfailure : w.cluster.failure with
  | some reason =>
      rw [hfailure] at heff
      exact nomatch (Prod.mk.inj heff).1
  | none =>
      simp only [hfailure, Bool.not_true, Bool.and_false, Bool.false_eq_true, if_false] at heff
      rw [← (Prod.mk.inj heff).2]

theorem delete_error {r : Reference} {fault : Fault}
    (h : (delete r true).Ends troubled w (.error fault) w') : Same .permissions w w' := by
  rcases Program.ends_ask.mp h with heffect | ⟨-, rfl⟩
  · have heff : w.onCluster (w.cluster.delete r true) = (.error fault, w') := heffect
    unfold onCluster Cluster.delete at heff
    cases hfailure : w.cluster.failure with
    | some reason =>
        rw [hfailure] at heff
        rw [← (Prod.mk.inj heff).2]
        exact same_refl _ w
    | none =>
        simp only [hfailure, Bool.not_true, Bool.and_false, Bool.false_eq_true, if_false] at heff
        cases heff
  · exact same_refl _ w'

theorem leaves_apply {x : Holding} (hx : x ≠ .permissions) (o : PermissionObject) :
    Leaves x (apply o) :=
  Program.only_ask fun h => hx (Option.some.inj h).symm

theorem leaves_delete {x : Holding} (hx : x ≠ .permissions) (r : Reference)
    (ignoreMissing : Bool) : Leaves x (delete r ignoreMissing) :=
  Program.only_ask fun h => hx (Option.some.inj h).symm

/-! ## Records -/

/-- A write of metadata and spec leaves the rest of the stored record as it is. -/
theorem updateRecord_ok {record d stored : Composition} (hd : w.Stores d)
    (hkey : record.key = d.key)
    (h : (updateRecord record).Ends troubled w (.ok stored) w') :
    stored = { d with metadata := record.metadata, spec := record.spec } ∧ w'.Stores stored := by
  have heff := ends_ask_ok.mp h
  have hold : w.store.get? record.key = some d := by
    rw [hkey]
    exact hd
  have hstored : (w.store.update record).1 =
      { d with metadata := record.metadata, spec := record.spec } := by
    unfold Store.update
    simp only [hold, Option.getD_some]
  obtain rfl : stored = (w.store.update record).1 :=
    (Except.ok.inj (congrArg Prod.fst heff)).symm
  refine ⟨hstored, ?_⟩
  rw [show w' = { w with store := (w.store.update record).2 } from
    (congrArg Prod.snd heff).symm]
  exact Assoc.get?_insert_self _ _ _

/-- A write of the status leaves the rest of the stored record as it is. -/
theorem updateStatus_ok {record d stored : Composition} (hd : w.Stores d)
    (hkey : record.key = d.key)
    (h : (updateStatus record).Ends troubled w (.ok stored) w') :
    stored = { d with status := record.status } ∧ w'.Stores stored := by
  have heff : w.onStore (w.store.updateStatus record) = (.ok stored, w') := ends_ask_ok.mp h
  obtain ⟨hanswer, hafter⟩ := Prod.mk.inj heff
  obtain ⟨old, hold, hstored, hrecords⟩ := Store.updateStatus_ok (Prod.ext hanswer rfl)
  obtain rfl : old = d := by
    rw [hkey] at hold
    exact Option.some.inj (hold.symm.trans hd)
  refine ⟨hstored, ?_⟩
  rw [← hafter]
  show Assoc.get? stored.key (w.store.updateStatus record).2.records = some stored
  rw [hrecords, Assoc.get?_insert_self]

theorem updateRecord_error {record : Composition} {fault : Fault}
    (h : (updateRecord record).Ends troubled w (.error fault) w') : Same .records w w' := by
  rcases Program.ends_ask.mp h with heffect | ⟨-, rfl⟩
  · exact nomatch congrArg Prod.fst heffect
  · exact same_refl _ w'

/-- A write of the status that fails leaves the records as they are. -/
theorem updateStatus_error {record : Composition} {fault : Fault}
    (h : (updateStatus record).Ends troubled w (.error fault) w') : Same .records w w' := by
  rcases Program.ends_ask.mp h with heffect | ⟨-, rfl⟩
  · have heff : w.onStore (w.store.updateStatus record) = (.error fault, w') := heffect
    obtain ⟨hanswer, rfl⟩ := Prod.mk.inj heff
    exact Store.updateStatus_error (Prod.ext hanswer rfl)
  · exact same_refl _ w'

end Task

end Chartkeeper
