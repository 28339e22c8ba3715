import Chartkeeper.Control.Permissions
import Chartkeeper.Proofs.Control.Calls
import Chartkeeper.Proofs.Permission.Bundle
/-!
# What making and removing a bundle does

A bundle is made of what the inspector reports, and of nothing else in a world. Applying it puts
its objects into the cluster one after the other, and can be done again from the start wherever it
was broken off. Removing it takes its objects out of the cluster by their references. Wherever that
stops, everything that is found by another reference is as it was; when it does not stop, nothing of
the bundle is left.
-/

namespace Chartkeeper

open World

variable {w w' : World}

/-! ## References in a cluster -/

/-- No two objects of a cluster are found by one reference. -/
def Cluster.Proper (c : Cluster) : Prop :=
  (c.objects.map Prod.fst).Nodup

/-- Every call keeps a cluster proper, whether it fails or not. -/
theorem proper_effect (h : w.cluster.Proper) (call : Port.Call) :
    (w.effect call).2.cluster.Proper := by
  unfold Cluster.Proper at h ⊢
  cases call with
  | apply o =>
      show ((w.cluster.apply o).2.objects.map Prod.fst).Nodup
      unfold Cluster.apply
      cases w.cluster.failure with
      | some reason => exact h
      | none => exact Assoc.nodup_keys_insert h
  | delete r ignoreMissing =>
      show ((w.cluster.delete r ignoreMissing).2.objects.map Prod.fst).Nodup
      unfold Cluster.delete
      cases w.cluster.failure with
      | some reason => exact h
      | none =>
          dsimp only
          split
          · exact Assoc.nodup_keys_erase h
          · exact Assoc.nodup_keys_erase h
  | _ => exact h

theorem proper_ends {α : Type} {p : Task α} {r : Except Fault α} (h : w.cluster.Proper)
    (he : p.Ends troubled w r w') : w'.cluster.Proper :=
  (keeps_of_effect (fun (s : World) call (hs : s.cluster.Proper) => proper_effect hs call) p h he).1

/-- No call changes whether a cluster is made to fail. -/
theorem failure_effect (w : World) (call : Port.Call) :
    (w.effect call).2.cluster.failure = w.cluster.failure := by
  cases call with
  | apply o =>
      show (w.cluster.apply o).2.failure = _
      unfold Cluster.apply
      split <;> rfl
  | delete r ignoreMissing =>
      show (w.cluster.delete r ignoreMissing).2.failure = _
      unfold Cluster.delete
      split
      · rfl
      · dsimp only
        split <;> rfl
  | _ => rfl

theorem keeps_failure {α : Type} (failure : Option String) (p : Task α) :
    Program.Keeps answers (fun s => s.cluster.failure = failure) p fun _ => True :=
  fun _ _ _ hs h =>
    keeps_of_effect (fun s call hs => (failure_effect s call).trans hs) p hs
      (troubled_of_answers h)

/-- The objects of a cluster after some were applied, one after the other. -/
def Cluster.grant (items : List PermissionObject) (objects : Assoc Reference PermissionObject) :
    Assoc Reference PermissionObject :=
  Assoc.insertAll (items.map fun o => (o.reference, o)) objects

/-- Objects that were applied can be applied again without changing anything. -/
theorem Cluster.grant_self (items : List PermissionObject)
    (objects : Assoc Reference PermissionObject) :
    grant items (grant items objects) = grant items objects :=
  Assoc.insertAll_self _ _

/-- An application that was broken off can be done again from the start. -/
theorem Cluster.grant_of_isPrefix {applied items : List PermissionObject} (h : applied <+: items)
    (objects : Assoc Reference PermissionObject) :
    grant items (grant applied objects) = grant items objects :=
  Assoc.insertAll_of_isPrefix (h.map _) objects

theorem Cluster.keys_rows (items : List PermissionObject) :
    (items.map fun o => (o.reference, o)).map Prod.fst = items.map PermissionObject.reference :=
  List.map_map

theorem Cluster.get?_grant_of_not_mem {items : List PermissionObject}
    {objects : Assoc Reference PermissionObject} {r : Reference}
    (h : r ∉ items.map PermissionObject.reference) :
    (grant items objects).get? r = objects.get? r := by
  refine Assoc.get?_insertAll_of_not_mem ?_
  rwa [keys_rows]

/-- Of objects that are found by different references, each is there once all were applied. -/
theorem Cluster.get?_grant_of_mem {items : List PermissionObject}
    {objects : Assoc Reference PermissionObject} {o : PermissionObject}
    (hapart : (items.map PermissionObject.reference).Nodup) (ho : o ∈ items) :
    (grant items objects).get? o.reference = some o := by
  rw [← keys_rows] at hapart
  exact Assoc.get?_insertAll_of_mem hapart
    (List.mem_map_of_mem (f := fun o => (o.reference, o)) ho)

/-- Applying takes nothing away. -/
theorem Cluster.get?_grant_ne_none {items : List PermissionObject}
    {objects : Assoc Reference PermissionObject} {r : Reference} (h : objects.get? r ≠ none) :
    (grant items objects).get? r ≠ none := by
  rw [ne_eq, Assoc.get?_eq_none_iff, Classical.not_not] at h ⊢
  exact Assoc.mem_keys_insertAll h

/-- The objects of a cluster after some were deleted, one after the other. -/
def Cluster.revoke (items : List PermissionObject) (objects : Assoc Reference PermissionObject) :
    Assoc Reference PermissionObject :=
  Assoc.eraseAll (items.map PermissionObject.reference) objects

/-! ## Making a bundle -/

namespace Owner

theorem generate_ok {o : Owner} {account : ServiceAccount} {base : String} {bundle : Bundle}
    (h : (o.generate account base).Ends troubled w (.ok bundle) w') :
    o.check account base = .ok () ∧
      bundle = o.bundle account base (.ofReport o.namespaceName w.report) := by
  unfold Owner.generate at h
  obtain ⟨_, _, ⟨hcheck, rfl⟩, hrest⟩ := Program.ends_bind_ok.mp h
  obtain ⟨report, _, hreport, hbundle, -⟩ := Program.ends_bind_ok.mp hrest
  obtain rfl := Task.inspect_ok hreport
  exact ⟨hcheck.symm, Except.ok.inj hbundle⟩

/-- An owner that passes its check gets a bundle when the inspector answers. -/
theorem ends_generate {o : Owner} {account : ServiceAccount} {base : String}
    (hcheck : o.check account base = .ok ()) (hanswers : w.inspectorFailure = none) :
    (o.generate account base).Ends answers w
      (.ok (o.bundle account base (.ofReport o.namespaceName w.report))) w := by
  refine Program.ends_bind_ok.mpr ⟨(), w, ⟨hcheck.symm, rfl⟩, ?_⟩
  refine Program.ends_bind_ok.mpr ⟨w.report, w, Program.ends_ask.mpr ?_, rfl, rfl⟩
  show (given w.inspectorFailure .inspector w.report, w) = _
  rw [hanswers]
  rfl

theorem inert_generate (o : Owner) (account : ServiceAccount) (base : String) :
    (o.generate account base).Only Port.Call.Inert :=
  Program.only_bind Program.only_lift fun _ =>
    Program.only_bind (Program.only_ask trivial) fun _ => Program.only_pure

theorem leaves_generate (x : Holding) (o : Owner) (account : ServiceAccount) (base : String) :
    Leaves x (o.generate account base) :=
  leaves_of_inert (inert_generate o account base) x

theorem sure_generate {o : Owner} {account : ServiceAccount} {base : String}
    (h : o.check account base = .ok ()) (w : World) :
    Program.Sure serving w (o.generate account base) :=
  Program.sure_bind (Program.sure_lift h) fun _ _ _ =>
    Program.sure_bind (Program.sure_ask _) fun _ _ _ => Program.sure_pure

end Owner

namespace Bundle

variable {b : Bundle} {r : Reference}

/-! ## Applying -/

theorem leaves_install {x : Holding} (hx : x ≠ .permissions) (b : Bundle) :
    Leaves x b.install :=
  Program.only_each fun o _ => Program.only_during (Task.leaves_apply hx o)

theorem sure_install (w : World) (b : Bundle) : Program.Sure serving w b.install :=
  Program.sure_each fun _ _ _ => Program.sure_during (Program.sure_ask _)

/-- Applies one object of a bundle. -/
def put (o : PermissionObject) : Task Unit :=
  (Task.apply o).during ("applying " ++ o.title)

/-- A cluster that is not made to fail takes all of a bundle. -/
theorem sure_install_of_failure (h : w.cluster.failure = none) (b : Bundle) :
    Program.Sure answers w b.install := by
  refine Program.sure_each_of_keeps h (fun o _ s hs => Program.sure_during (sure_of_answer ⟨(), ?_⟩))
    fun o _ => keeps_failure none (put o)
  show (s.cluster.apply o).1 = .ok ()
  unfold Cluster.apply
  rw [hs]

theorem result_install_of_failure (h : w.cluster.failure = none) (b : Bundle) :
    (w.run none b.install).result = .ok () := by
  obtain ⟨_, hresult⟩ := sure_install_of_failure h b (Program.ends_run _ w 0)
  exact hresult

/-- **Wherever an application stops**, the first objects of the bundle were applied, and all of them
if it did not stop. -/
theorem granted_of_install {result : Except Fault Unit} (h : b.install.Ends troubled w result w') :
    ∃ applied, applied <+: b.applyOrder ∧
      w'.cluster.objects = Cluster.grant applied w.cluster.objects ∧
      (result = .ok () → applied = b.applyOrder) := by
  obtain ⟨applied, hstart, hobjects, hall⟩ := Program.ends_each (fun s : World => s.cluster.objects)
    (fun objects o => objects.insert o.reference o)
    (fun _ _ _ hput => Task.apply_ok (Program.ends_during_ok.mp hput))
    (fun _ _ _ _ hput => (Program.ends_during_error hput).elim fun _ => Task.apply_error) h
  refine ⟨applied, hstart, ?_, hall⟩
  rw [hobjects, Cluster.grant, Assoc.insertAll, List.foldl_map]

theorem objects_of_install (h : b.install.Ends troubled w (.ok ()) w') :
    w'.cluster.objects = Cluster.grant b.applyOrder w.cluster.objects := by
  obtain ⟨applied, -, hobjects, hall⟩ := granted_of_install h
  rw [hobjects, hall rfl]

theorem mem_references_applyOrder :
    r ∈ b.applyOrder.map PermissionObject.reference ↔ r ∈ b.references :=
  (b.applyOrder_perm.map PermissionObject.reference).mem_iff

theorem nodup_references_applyOrder (hapart : b.references.Nodup) :
    (b.applyOrder.map PermissionObject.reference).Nodup :=
  (b.applyOrder_perm.map PermissionObject.reference).nodup_iff.mpr hapart

/-- What is found by another reference stays, wherever the application stops. -/
theorem kept_of_install {result : Except Fault Unit} (hr : r ∉ b.references)
    (h : b.install.Ends troubled w result w') :
    w'.cluster.objects.get? r = w.cluster.objects.get? r := by
  obtain ⟨applied, hstart, hobjects, -⟩ := granted_of_install h
  rw [hobjects]
  refine Cluster.get?_grant_of_not_mem fun hmem => hr ?_
  exact mem_references_applyOrder.mp ((hstart.map _).subset hmem)

/-- All objects of a bundle are in the cluster, as they were made. -/
def Held (b : Bundle) (w : World) : Prop :=
  ∀ o ∈ b.objects, w.cluster.objects.get? o.reference = some o

/-- A bundle whose objects are apart is there once it was applied. -/
theorem held_of_install (hapart : b.references.Nodup)
    (h : b.install.Ends troubled w (.ok ()) w') : b.Held w' := by
  intro o ho
  rw [objects_of_install h]
  exact Cluster.get?_grant_of_mem (nodup_references_applyOrder hapart)
    (b.applyOrder_perm.mem_iff.mpr ho)

/-! ## Removing -/

theorem leaves_uninstall {x : Holding} (hx : x ≠ .permissions) (b : Bundle) :
    Leaves x b.uninstall :=
  Program.only_each fun _ _ => Program.only_during (Task.leaves_delete hx _ _)

/-- Deletes one object of a bundle. -/
def remove (o : PermissionObject) : Task Unit :=
  (Task.delete o.reference true).during ("deleting " ++ o.title)

theorem sure_uninstall_of_failure (h : w.cluster.failure = none) (b : Bundle) :
    Program.Sure answers w b.uninstall := by
  refine Program.sure_each_of_keeps h (fun o _ s hs => Program.sure_during (sure_of_answer ⟨(), ?_⟩))
    fun o _ => keeps_failure none (remove o)
  show (s.cluster.delete o.reference true).1 = .ok ()
  unfold Cluster.delete
  simp only [hs, Bool.not_true, Bool.and_false, Bool.false_eq_true, if_false]

theorem result_uninstall_of_failure (h : w.cluster.failure = none) (b : Bundle) :
    (w.run none b.uninstall).result = .ok () := by
  obtain ⟨_, hresult⟩ := sure_uninstall_of_failure h b (Program.ends_run _ w 0)
  exact hresult

/-- **Wherever a removal stops**, the first objects of the bundle were deleted, and all of them if it
did not stop. -/
theorem revoked_of_uninstall {result : Except Fault Unit}
    (h : b.uninstall.Ends troubled w result w') :
    ∃ removed, removed <+: b.removeOrder ∧
      w'.cluster.objects = Cluster.revoke removed w.cluster.objects ∧
      (result = .ok () → removed = b.removeOrder) := by
  obtain ⟨removed, hstart, hobjects, hall⟩ := Program.ends_each (fun s : World => s.cluster.objects)
    (fun objects o => objects.erase o.reference)
    (fun _ _ _ hremove => Task.delete_ok (Program.ends_during_ok.mp hremove))
    (fun _ _ _ _ hremove => (Program.ends_during_error hremove).elim fun _ => Task.delete_error) h
  refine ⟨removed, hstart, ?_, hall⟩
  rw [hobjects, Cluster.revoke, Assoc.eraseAll, List.foldl_map]

theorem objects_of_uninstall (h : b.uninstall.Ends troubled w (.ok ()) w') :
    w'.cluster.objects = Cluster.revoke b.removeOrder w.cluster.objects := by
  obtain ⟨removed, -, hobjects, hall⟩ := revoked_of_uninstall h
  rw [hobjects, hall rfl]

theorem mem_references_removeOrder :
    r ∈ b.removeOrder.map PermissionObject.reference ↔ r ∈ b.references := by
  unfold references
  simp only [List.mem_map, mem_removeOrder]

/-- What is found by another reference stays, wherever the removal stops. -/
theorem kept_of_uninstall {result : Except Fault Unit} (hr : r ∉ b.references)
    (h : b.uninstall.Ends troubled w result w') :
    w'.cluster.objects.get? r = w.cluster.objects.get? r := by
  obtain ⟨removed, hstart, hobjects, -⟩ := revoked_of_uninstall h
  rw [hobjects]
  refine Assoc.get?_eraseAll_of_not_mem fun hmem => hr ?_
  exact mem_references_removeOrder.mp ((hstart.map _).subset hmem)

/-- **A removal that does not stop removes the whole bundle and nothing else.** -/
theorem get?_of_uninstall (hproper : w.cluster.Proper)
    (h : b.uninstall.Ends troubled w (.ok ()) w') (r : Reference) :
    w'.cluster.objects.get? r = if r ∈ b.references then none else w.cluster.objects.get? r := by
  by_cases hr : r ∈ b.references
  · rw [if_pos hr, objects_of_uninstall h]
    exact Assoc.get?_eraseAll_of_mem (mem_references_removeOrder.mpr hr) hproper
  · rw [if_neg hr, kept_of_uninstall hr h]

end Bundle

end Chartkeeper
