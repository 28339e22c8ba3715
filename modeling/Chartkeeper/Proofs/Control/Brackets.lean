import Chartkeeper.Proofs.Control.Orderly
import Chartkeeper.Proofs.Control.Traces
import Chartkeeper.Proofs.Permission.Need
/-!
# When permissions are there

Permissions are put around a release. When the release of a record is installed or upgraded, the
cluster holds every object of the record's bundle, as it was made: no two objects are found by one
reference, so none of them replaced another, and an application that stopped did not get that far.
When a permission is deleted, there is no release under the record's name.

A record that is not the stored one may be given another kind when it is read back from the store,
and with it another resource. So the bundle of a run is the one for the kind of the record, or for
that of the record under its key.
-/

namespace Chartkeeper

open World Chartkeeper.Composition

/-- A call that neither goes to the package manager nor takes a permission away. -/
def Port.Call.Plain : Port.Call → Prop
  | .getRelease _ | .install .. | .upgrade .. | .rollback .. | .uninstall .. | .delete .. => False
  | _ => True

theorem Port.Call.Clerical.plain {call : Port.Call} (h : call.Clerical) : call.Plain := by
  cases call with
  | getRelease | install | upgrade | rollback | uninstall | delete => exact h.elim
  | _ => trivial

theorem Program.Only.plain {α : Type} {p : Task α} (hp : p.Only Port.Call.Clerical) :
    p.Only Port.Call.Plain :=
  hp.mono fun _ => Port.Call.Clerical.plain

namespace Controller

variable {α : Type} {k : Controller} {w w' s s' : World} {c d : Composition} {package : Package}
  {resource : ApiResource}

/-! ## Steps that neither touch a release nor take a permission away -/

theorem plain_installPermissions (k : Controller) (c : Composition) (name : String)
    (resource : ApiResource) (package : Package) :
    (k.installPermissions c name resource package).Only Port.Call.Plain :=
  Program.only_bind (Program.only_during (Owner.inert_generate _ _ _).clerical.plain) fun _ =>
    Program.only_during (Program.only_each fun _ _ =>
      Program.only_during (Program.only_ask trivial))

/-- Telling of a pause is all that is done about a paused record. -/
theorem plain_perform_paused (hpause : c.pause = .paused) (deed : Deed) :
    (k.perform c deed).Only Port.Call.Plain := by
  cases deed with
  | observe =>
      refine Program.only_bind ?_ fun _ => Program.only_pure
      rw [observe_of_paused hpause]
      exact inert_told.clerical.plain
  | create =>
      show (k.create c).Only _
      rw [create_of_paused hpause]
      exact inert_told.clerical.plain
  | update =>
      show (update c).Only _
      rw [update_of_paused hpause]
      exact inert_told.clerical.plain
  | delete =>
      show (k.delete c).Only _
      rw [delete_of_paused hpause]
      exact inert_told.clerical.plain

/-! ## Records on their way -/

theorem kin_of_metadata (h : d.metadata = c.metadata) : Kin c d := by
  refine ⟨congrArg Metadata.name h, congrArg Metadata.namespaceName h, ?_⟩
  unfold releaseName releaseName? Composition.name Composition.uid
  rw [h]

/-- Whatever was stored before, the record that goes on has the metadata that it was to have. -/
theorem kin_saveIf {changed : Bool} {stored : Composition}
    (h : (saveIf changed c).Ends troubled w (.ok stored) w') : Kin c stored := by
  cases changed with
  | false =>
      obtain ⟨hstored, -⟩ := h
      rw [Except.ok.inj hstored]
      exact Kin.refl c
  | true =>
      have heffect := ends_ask_ok.mp (Program.ends_during_ok.mp h)
      obtain rfl := Except.ok.inj (congrArg Prod.fst heffect)
      exact kin_of_metadata rfl

theorem kin_mark {record : Composition}
    (h : (mark c).Ends troubled w (.ok (record, package)) w') : Kin c record := by
  obtain ⟨resumed, w₁, hsave, h₁⟩ := Program.ends_bind_ok.mp h
  obtain ⟨found, w₂, -, h₂⟩ := Program.ends_bind_ok.mp h₁
  obtain ⟨stored, w₃, hdefine, hmarking, -⟩ := Program.ends_bind_ok.mp h₂
  obtain ⟨rfl, rfl⟩ := Prod.mk.inj (Except.ok.inj hmarking)
  have hlasting := lasting_kin c
  have hresumed := (hlasting.resumed (hlasting.named (Kin.refl c))).trans (kin_saveIf hsave)
  exact (hlasting.defined package.definition hresumed).trans (kin_saveIf hdefine)

/-- A resource that serves the kind of a record, or that of the record stored under its key. -/
def Serves (w : World) (c : Composition) (resource : ApiResource) : Prop :=
  ∃ e, (e = c ∨ w.store.get? c.key = some e) ∧ w.mapper.resource e.apiKind = .ok resource

/-- What a record has become at some point of a run that began with it. -/
structure Draft (w : World) (c : Composition) (s : World) (d : Composition) : Prop where
  kin : Kin c d
  serves : ∀ resource, Serves s d resource → Serves w c resource
  surroundings : s.surroundings = w.surroundings

theorem Draft.refl (w : World) (c : Composition) : Draft w c w c :=
  ⟨Kin.refl c, fun _ h => h, rfl⟩

/-- Marks do not change what serves a record. -/
theorem Draft.marked {e : Composition} (h : Draft w c s d) (hkin : Kin c e)
    (hkind : e.apiKind = d.apiKind) : Draft w c s e := by
  refine ⟨hkin, fun resource hserves => h.serves resource ?_, h.surroundings⟩
  obtain ⟨f, hf | hf, hresource⟩ := hserves
  · refine ⟨d, Or.inl rfl, ?_⟩
    rw [← hkind, ← hf]
    exact hresource
  · refine ⟨f, Or.inr ?_, hresource⟩
    rw [h.kin.key, ← hkin.key]
    exact hf

theorem Draft.after {p : Task α} {r : Except Fault α} (h : Draft w c s d)
    (hp : Leaves .records p) (he : p.Ends troubled s r s') : Draft w c s' d := by
  have hsurroundings := surroundings_ends he
  refine ⟨h.kin, fun resource hserves => h.serves resource ?_, hsurroundings.trans h.surroundings⟩
  unfold Serves at hserves ⊢
  rw [hp.store he, show s'.mapper = s.mapper from congrArg Surroundings.mapper hsurroundings]
    at hserves
  exact hserves

/-- A record that is read back has its own kind, or the one that was stored. -/
theorem Draft.saved {changed : Bool} {stored : Composition} (h : Draft w c s d)
    (he : (saveIf changed d).Ends troubled s (.ok stored) s') : Draft w c s' stored := by
  have hsurroundings := surroundings_ends he
  have hkin := kin_saveIf he
  refine ⟨h.kin.trans hkin, fun resource hserves => h.serves resource ?_,
    hsurroundings.trans h.surroundings⟩
  cases changed with
  | false =>
      obtain ⟨hstored, rfl⟩ := he
      rwa [Except.ok.inj hstored] at hserves
  | true =>
      have heffect := ends_ask_ok.mp (Program.ends_during_ok.mp he)
      obtain rfl := Except.ok.inj (congrArg Prod.fst heffect)
      obtain rfl : { s with store := (s.store.update d).2 } = s' := congrArg Prod.snd heffect
      obtain ⟨e, he, hresource⟩ := hserves
      have hlast : e = (s.store.update d).1 := by
        rcases he with he | he
        · exact he
        · exact Option.some.inj (he.symm.trans (Assoc.get?_insert_self _ _ _))
      subst hlast
      cases hold : s.store.get? d.key with
      | none =>
          refine ⟨d, Or.inl rfl, ?_⟩
          unfold Store.update at hresource
          rw [hold] at hresource
          exact hresource
      | some old =>
          refine ⟨old, Or.inr hold, ?_⟩
          unfold Store.update at hresource
          rw [hold] at hresource
          exact hresource

theorem draft_mark {record : Composition}
    (h : (mark c).Ends troubled w (.ok (record, package)) s) :
    Draft w c s record ∧ package = w.package := by
  obtain ⟨resumed, w₁, hsave, h₁⟩ := Program.ends_bind_ok.mp h
  obtain ⟨found, w₂, hpackage, h₂⟩ := Program.ends_bind_ok.mp h₁
  obtain ⟨stored, w₃, hdefine, hmarking, rfl⟩ := Program.ends_bind_ok.mp h₂
  obtain ⟨rfl, rfl⟩ := Prod.mk.inj (Except.ok.inj hmarking)
  have hlasting := lasting_kin c
  have hresumed := hlasting.resumed (hlasting.named (Kin.refl c))
  have hkind : (c.setReleaseName c.releaseName).1.removePauseTime.1.apiKind = c.apiKind :=
    show (c.setReleaseName c.releaseName).1.apiKind = c.apiKind from
      apiKind_eq_of_alike (alike_setReleaseName c)
  have hdraft₁ := ((Draft.refl w c).marked hresumed hkind).saved hsave
  have hdraft₂ := hdraft₁.after (leaves_findPackage .records resumed) hpackage
  have hdefined := hlasting.defined package.definition hdraft₂.kin
  have hdraft₃ := hdraft₂.marked hdefined (apiKind_eq_of_alike (alike_setDefinition _ _))
  refine ⟨hdraft₃.saved hdefine, ?_⟩
  exact (findPackage_ok hpackage).trans (congrArg Surroundings.package hdraft₁.surroundings)

/-! ## The condition on calls -/

/-- The cluster holds the bundle of a record. -/
def Permitted (k : Controller) (w : World) (c : Composition) (s : World) : Prop :=
  ∃ resource, Serves w c resource ∧
    (owner c resource w.package).check k.account c.releaseName = .ok () ∧
    (k.bundleOf w c resource).Held s

/-- A release is installed or upgraded where the bundle of its record is in the cluster, and
installed only where there is none. A permission is deleted where there is no release. -/
def Bracketed (k : Controller) (w : World) (c : Composition) (s : World) : Port.Call → Prop
  | .install key .. => Permitted k w c s ∧ s.backend.current? key = none
  | .upgrade .. => Permitted k w c s
  | .delete .. => s.backend.current? (releaseKey c c.releaseName) = none
  | _ => True

theorem nodup_references_bundleOf (k : Controller) (w : World) (c : Composition)
    (resource : ApiResource) : (k.bundleOf w c resource).references.Nodup :=
  Owner.nodup_references (Needs.nodup_spaces_ofReport _ _)

/-- The permissions of a record are there once they were installed for what became of it. -/
theorem Draft.permitted (hdraft : Draft w c s d) (hserved : Serves w c resource)
    (h : (k.installPermissions d c.releaseName resource w.package).Ends troubled s (.ok ()) s') :
    Permitted k w c s' := by
  obtain ⟨bundle, s₁, hgenerate, hinstall⟩ := Program.ends_bind_ok.mp h
  obtain ⟨hcheck, hbundle⟩ := Owner.generate_ok (Program.ends_during_ok.mp hgenerate)
  have howner : owner d resource w.package = owner c resource w.package := by
    unfold owner
    rw [show d.name = c.name from hdraft.kin.name,
      show d.namespaceName = c.namespaceName from hdraft.kin.namespaceName]
  have hreport : s.report = w.report := congrArg Surroundings.report hdraft.surroundings
  rw [howner] at hcheck hbundle
  rw [hreport] at hbundle
  have hwhole : bundle = k.bundleOf w c resource := hbundle
  subst hwhole
  have hapart := nodup_references_bundleOf k w c resource
  exact ⟨resource, hserved, hcheck,
    Bundle.held_of_install hapart (Program.ends_during_ok.mp hinstall)⟩

theorem bracketed_of_plain {p : Task α} (hp : p.Only Port.Call.Plain) :
    p.Heeds troubled (Bracketed k w c) s := by
  refine Program.heeds_of_only (hp.mono fun call hcall t => ?_)
  cases call with
  | install | upgrade | delete => exact hcall.elim
  | _ => exact trivial

theorem bracketed_noted {p : Task α} {operation : String}
    (hp : p.Heeds troubled (Bracketed k w c) s) :
    (noted d operation p).Heeds troubled (Bracketed k w c) s := by
  refine Program.heeds_bind (Program.heeds_outcome hp) fun outcome s₁ _ => ?_
  cases outcome with
  | ok a => exact bracketed_of_plain Program.only_pure
  | error fault => exact bracketed_of_plain (clerical_failNoted d operation fault).plain

/-! ## Operations -/

theorem bracketed_renew (hdraft : Draft w c s d) (before : Release) :
    (k.renew d c.releaseName w.package before).Heeds troubled (Bracketed k w c) s := by
  refine Program.heeds_bind (bracketed_of_plain (inert_findResource d).clerical.plain) ?_
  intro resource s₁ hresource
  have hserved := hdraft.serves resource ⟨d, Or.inl rfl, findResource_ok hresource⟩
  have hdraft₁ := hdraft.after (leaves_findResource .records d) hresource
  refine Program.heeds_bind (bracketed_of_plain (only_noted
    (plain_installPermissions k d c.releaseName resource w.package)
    fun fault => (clerical_failNoted d _ fault).plain)) ?_
  intro _ s₂ hpermissions
  have hpermitted := hdraft₁.permitted hserved (noted_ok hpermissions)
  refine Program.heeds_bind (bracketed_of_plain Program.only_lift) ?_
  rintro action s₃ ⟨-, rfl⟩
  refine Program.heeds_bind
    (bracketed_noted (Program.heeds_during (Program.heeds_ask hpermitted))) ?_
  exact fun after s₄ _ =>
    bracketed_of_plain (clerical_observeUpgraded d w.package before after).plain

theorem bracketed_observe (k : Controller) (w : World) (c : Composition) :
    (k.observe c).Heeds troubled (Bracketed k w c) w := by
  by_cases hpause : c.pause = .paused
  · rw [observe_of_paused hpause]
    exact bracketed_of_plain inert_told.clerical.plain
  · rw [observe_of_mark hpause]
    refine Program.heeds_bind (bracketed_of_plain (clerical_mark c).plain) ?_
    rintro ⟨record, package⟩ w₁ hmark
    obtain ⟨hdraft, rfl⟩ := draft_mark hmark
    refine Program.heeds_bind (Program.heeds_during (Program.heeds_ask trivial)) ?_
    intro found w₂ hfind
    have hdraft₂ := hdraft.after (leaves_findRelease .records record c.releaseName) hfind
    cases found with
    | none => exact bracketed_of_plain Program.only_pure
    | some release =>
        have hrecover : (k.recover (releaseKey record c.releaseName) release).Heeds troubled
            (Bracketed k w c) w₂ := by
          unfold recover
          split
          · exact Program.heeds_during (Program.heeds_ask trivial)
          · exact bracketed_of_plain Program.only_pure
        refine Program.heeds_bind hrecover fun before w₃ hrecovered => ?_
        have hdraft₃ := hdraft₂.after (leaves_recover (by decide) k _ release) hrecovered
        exact bracketed_renew hdraft₃ before

theorem bracketed_make (hdraft : Draft w c s d) :
    (k.make c.releaseName d w.package).Heeds troubled (Bracketed k w c) s := by
  refine Program.heeds_bind (bracketed_of_plain (inert_findResource d).clerical.plain) ?_
  intro resource s₁ hresource
  have hserved := hdraft.serves resource ⟨d, Or.inl rfl, findResource_ok hresource⟩
  have hdraft₁ := hdraft.after (leaves_findResource .records d) hresource
  refine Program.heeds_bind (bracketed_of_plain (Program.only_during
    (plain_installPermissions k d c.releaseName resource w.package))) ?_
  intro _ s₂ hpermissions
  obtain ⟨served, hserves, hcheck, hheld⟩ :=
    hdraft₁.permitted hserved (Program.ends_during_ok.mp hpermissions)
  refine Program.heeds_bind (bracketed_of_plain Program.only_lift) ?_
  rintro action s₃ ⟨-, rfl⟩
  refine Program.heeds_bind (Program.heeds_during (Program.heeds_ask trivial)) ?_
  intro existing s₄ hfind
  -- Looking the release up is all that happens in between.
  have hpermitted : Permitted k w c s₄ := by
    refine ⟨served, hserves, hcheck, fun o ho => ?_⟩
    rw [show s₄.cluster.objects = s₃.cluster.objects from
      (leaves_findRelease .permissions d _).same hfind]
    exact hheld o ho
  cases existing with
  | none =>
      have hvacant : s₄.backend.current? (releaseKey d c.releaseName) = none := by
        rw [((leaves_findRelease .releases d _).same hfind).current?]
        exact (findRelease_ok hfind).symm
      exact Program.heeds_during (Program.heeds_ask ⟨hpermitted, hvacant⟩)
  | some _ => exact Program.heeds_during (Program.heeds_ask hpermitted)

theorem bracketed_create (k : Controller) (w : World) (c : Composition) :
    (k.create c).Heeds troubled (Bracketed k w c) w := by
  by_cases hpause : c.pause = .paused
  · exact bracketed_of_plain (plain_perform_paused (k := k) hpause .create)
  · have hsaving :=
      clerical_saveIf (c.setReleaseName c.releaseName).2 (c.setReleaseName c.releaseName).1
    rw [create_of_not_paused hpause]
    refine Program.heeds_bind (bracketed_of_plain hsaving.plain) fun record w₁ hsave => ?_
    have hnamed := alike_setReleaseName c
    have hdraft := ((Draft.refl w c).marked hnamed.kin (apiKind_eq_of_alike hnamed)).saved hsave
    refine Program.heeds_bind (bracketed_of_plain (inert_findPackage record).clerical.plain) ?_
    intro package w₂ hpackage
    have hdraft₂ := hdraft.after (leaves_findPackage .records record) hpackage
    obtain rfl : package = w.package :=
      (findPackage_ok hpackage).trans (congrArg Surroundings.package hdraft.surroundings)
    refine Program.heeds_bind (bracketed_make hdraft₂) fun release w₃ _ => ?_
    exact bracketed_of_plain (clerical_recordCreated record w.package release).plain

/-- A bundle is removed object by object in states that have the releases of the first one. -/
theorem bracketed_uninstall (b : Bundle)
    (hnone : s.backend.current? (releaseKey c c.releaseName) = none) :
    b.uninstall.Heeds troubled (Bracketed k w c) s := by
  have hdeletes : b.uninstall.Only fun call : Port.Call => ∃ r, call = .delete r true :=
    Program.only_each fun o _ => Program.only_during (Program.only_ask ⟨o.reference, rfl⟩)
  intro calls r t hgoes begun hbegun
  have hsame := (Bundle.leaves_uninstall (x := .releases) (by decide) b).begun hgoes begun hbegun
  obtain ⟨s₁, call⟩ := begun
  obtain ⟨q, rfl⟩ := hdeletes.made hgoes _ hbegun
  show s₁.backend.current? _ = none
  rw [hsame.current?]
  exact hnone

theorem bracketed_dismantle (hnone : s.backend.current? (releaseKey c c.releaseName) = none) :
    (k.dismantle c package).Heeds troubled (Bracketed k w c) s := by
  refine Program.heeds_bind (bracketed_of_plain (inert_findResource c).clerical.plain) ?_
  intro resource s₁ hresource
  rw [← ((leaves_findResource .releases c).same hresource).current?] at hnone
  have hgenerating := Owner.inert_generate (owner c resource package) k.account c.releaseName
  refine Program.heeds_bind
    (bracketed_of_plain (Program.only_during hgenerating.clerical.plain)) ?_
  intro bundle s₂ hgenerate
  rw [← ((Owner.leaves_generate .releases _ _ _).same
    (Program.ends_during_ok.mp hgenerate)).current?] at hnone
  refine Program.heeds_bind (Program.heeds_during (bracketed_uninstall bundle hnone)) ?_
  intro _ s₃ _
  exact bracketed_of_plain (Program.only_bind (Task.inert_announce _ _).clerical.plain fun _ =>
    Program.only_bind (clerical_saveRecord _).plain fun _ => Program.only_pure)

theorem bracketed_delete (k : Controller) (w : World) (c : Composition) :
    (k.delete c).Heeds troubled (Bracketed k w c) w := by
  by_cases hpause : c.pause = .paused
  · exact bracketed_of_plain (plain_perform_paused (k := k) hpause .delete)
  · unfold delete
    rw [if_neg hpause]
    refine Program.heeds_bind (bracketed_of_plain (inert_findPackage c).clerical.plain) ?_
    intro package w₁ _
    refine Program.heeds_bind (Program.heeds_during (Program.heeds_ask trivial)) ?_
    intro found w₂ _
    cases found with
    | none => exact bracketed_of_plain inert_told.clerical.plain
    | some release =>
        refine Program.heeds_bind (Program.heeds_during (Program.heeds_ask trivial)) ?_
        intro _ w₃ _
        refine Program.heeds_bind (Program.heeds_during (Program.heeds_ask trivial)) ?_
        intro left w₄ hfind
        cases left with
        | some _ => exact bracketed_of_plain Program.only_fail
        | none =>
            refine bracketed_dismantle ?_
            rw [((leaves_findRelease .releases c _).same hfind).current?]
            exact (findRelease_ok hfind).symm

theorem bracketed_update (k : Controller) (w : World) (c : Composition) :
    (update c).Heeds troubled (Bracketed k w c) w := by
  by_cases hpause : c.pause = .paused
  · exact bracketed_of_plain (plain_perform_paused (k := k) hpause .update)
  · rw [update_of_not_paused hpause]
    refine Program.heeds_bind (bracketed_of_plain (inert_findPackage c).clerical.plain) ?_
    intro package w₁ _
    refine Program.heeds_bind (Program.heeds_during (Program.heeds_ask trivial)) ?_
    intro found w₂ _
    cases found with
    | none => exact bracketed_of_plain Program.only_fail
    | some release => exact bracketed_of_plain (clerical_recordUpdated c package release).plain

theorem bracketed_perform (k : Controller) (w : World) (c : Composition) (deed : Deed) :
    (k.perform c deed).Heeds troubled (Bracketed k w c) w := by
  cases deed with
  | observe =>
      exact Program.heeds_bind (bracketed_observe k w c) fun _ _ _ =>
        bracketed_of_plain Program.only_pure
  | create => exact bracketed_create k w c
  | update => exact bracketed_update k w c
  | delete => exact bracketed_delete k w c

/-! ## The calls of a run -/

/-- The stored record has one kind only. -/
theorem Serves.of_stores (h : Serves w c resource) (hc : w.Stores c) :
    w.mapper.resource c.apiKind = .ok resource := by
  obtain ⟨e, he | he, hresource⟩ := h
  · rwa [he] at hresource
  · rwa [Option.some.inj (he.symm.trans hc)] at hresource

/-- **Permissions bracket the release.** Wherever an operation stops and whichever calls fail: when
it installs or upgrades a release, the cluster holds every object of the bundle that was made for
the record, exactly as it was made; and when it deletes a permission, there is no release under the
name of the record. -/
theorem brackets_of_perform {calls : List (World × Port.Call)} {deed : Deed}
    (h : (k.perform c deed).Begins troubled w calls) :
    (∀ s call, (s, call) ∈ calls →
      (∃ key url action, call = .install key url action) ∨
        (∃ key url action limit, call = .upgrade key url action limit) →
      ∃ resource, Serves w c resource ∧
        (owner c resource w.package).check k.account c.releaseName = .ok () ∧
        ∀ o ∈ (k.bundleOf w c resource).objects, s.cluster.objects.get? o.reference = some o) ∧
      ∀ s r ignoreMissing, (s, .delete r ignoreMissing) ∈ calls →
        s.backend.current? (releaseKey c c.releaseName) = none := by
  have hheeds := (bracketed_perform k w c deed).begins h
  refine ⟨fun s call hcall hchanges => ?_, fun s r ignoreMissing hcall => hheeds _ hcall⟩
  rcases hchanges with ⟨key, url, action, rfl⟩ | ⟨key, url, action, limit, rfl⟩
  · exact (hheeds _ hcall).1
  · exact hheeds _ hcall

/-- Whether a call installs a release. -/
def installs : Port.Call → Bool
  | .install .. => true
  | _ => false

/-- When the first release of a record is installed, all of its permissions are there. -/
theorem brackets_of_perform_created :
    ∃ s key url action, (s, Port.Call.install key url action) ∈
        ((World.sample "" .sample).run none (Controller.sample.perform .sample .create)).begun ∧
      ∀ o ∈ (Controller.sample.bundleOf (World.sample "" .sample) .sample
        ⟨"composition", "v1", "webs"⟩).objects, s.cluster.objects.get? o.reference = some o := by
  have hinstalls : ((World.sample "" .sample).run none
      (Controller.sample.perform .sample .create)).begun.any (installs ·.2) = true := by
    decide +kernel
  have hserved : (World.sample "" .sample).mapper.resource Composition.sample.apiKind =
      .ok ⟨"composition", "v1", "webs"⟩ := Fault.eq_ok_of_toOption (by decide +kernel)
  have hstored := World.sample_stores "" .sample
  -- The world becomes a variable before the theorem is applied, so that no run is evaluated then.
  generalize World.sample "" .sample = w at hinstalls hserved hstored ⊢
  obtain ⟨⟨s, call⟩, hcall, hinstall⟩ := List.any_eq_true.mp hinstalls
  have hbegins := Program.begins_run (m := machine) (Controller.sample.perform .sample .create)
    none w 0
  cases call with
  | install key url action =>
      obtain ⟨resource, hserves, -, hheld⟩ :=
        (brackets_of_perform hbegins).1 s _ hcall (Or.inl ⟨key, url, action, rfl⟩)
      obtain rfl := Except.ok.inj ((hserves.of_stores hstored).symm.trans hserved)
      exact ⟨s, key, url, action, hcall, hheld⟩
  | _ => exact nomatch hinstall

end Controller

end Chartkeeper
