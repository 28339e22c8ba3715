import Chartkeeper.Proofs.Control.Steps
/-!
# What observing does

Observing is cut into the parts between its calls, each as a program of its own. A record that
is not paused is marked, stored as marked, and its release is upgraded to the one that the record
asks for; `observe_ok` says how the world looks then. That lemma is all that later results know
of observing when it succeeds.
-/

namespace Chartkeeper.Controller

open World Chartkeeper.Composition

variable {α : Type} {k : Controller} {w w' : World} {c d : Composition} {name : String}
  {package : Package}

/-! ## The release that a record asks for -/

/-- The release that a record asks for, as the charts of a world render it now. -/
def wanted (k : Controller) (w : World) (c : Composition) : Except Fault Release := do
  let resource ← w.mapper.resource c.apiKind
  (owner c resource w.package).check k.account c.releaseName
  let action ← k.action c w.package resource
  w.backend.render (releaseKey c c.releaseName) w.package.url action

theorem wanted_eq_ok {rendered : Release} :
    k.wanted w c = .ok rendered ↔
      ∃ resource action, w.mapper.resource c.apiKind = .ok resource ∧
        (owner c resource w.package).check k.account c.releaseName = .ok () ∧
        k.action c w.package resource = .ok action ∧
        w.backend.render (releaseKey c c.releaseName) w.package.url action = .ok rendered := by
  unfold wanted
  constructor
  · intro h
    obtain ⟨resource, hresource, h₁⟩ := Fault.bind_eq_ok.mp h
    obtain ⟨_, hcheck, h₂⟩ := Fault.bind_eq_ok.mp h₁
    obtain ⟨action, haction, hrender⟩ := Fault.bind_eq_ok.mp h₂
    exact ⟨resource, action, hresource, hcheck, haction, hrender⟩
  · rintro ⟨resource, action, hresource, hcheck, haction, hrender⟩
    refine Fault.bind_eq_ok.mpr ⟨resource, hresource, ?_⟩
    refine Fault.bind_eq_ok.mpr ⟨(), hcheck, ?_⟩
    exact Fault.bind_eq_ok.mpr ⟨action, haction, hrender⟩

/-- It depends on what surrounds a controller and on what is alike in two records. -/
theorem wanted_eq (hw : w'.surroundings = w.surroundings) (h : Alike c d) :
    k.wanted w' d = k.wanted w c := by
  unfold wanted
  rw [show w'.mapper = w.mapper from congrArg Surroundings.mapper hw,
    show w'.package = w.package from congrArg Surroundings.package hw,
    apiKind_eq_of_alike h, h.releaseName, releaseKey_eq_of_alike h]
  simp only [owner_eq_of_alike h, action_eq_of_alike h, render_eq_of_surroundings hw]

/-- A release is deployed as some record asks for, whatever its revision. -/
def Fits (k : Controller) (w : World) (c : Composition) (r : Release) : Prop :=
  ∃ rendered, k.wanted w c = .ok rendered ∧ r = { rendered with revision := r.revision }

/-- Two releases that fit the same record differ in their revision only. -/
theorem Fits.eq {r r' : Release} (h : k.Fits w c r) (h' : k.Fits w c r') :
    r' = { r with revision := r'.revision } := by
  obtain ⟨rendered, hwanted, hr⟩ := h
  obtain ⟨rendered', hwanted', hr'⟩ := h'
  obtain rfl : rendered' = rendered := Except.ok.inj (hwanted'.symm.trans hwanted)
  rw [hr', hr]

theorem Fits.unnumbered {r r' : Release} (h : k.Fits w c r) (h' : k.Fits w c r') :
    r'.unnumbered = r.unnumbered := by
  rw [h.eq h']
  rfl

theorem Fits.status {r : Release} (h : k.Fits w c r) : r.status = .deployed := by
  obtain ⟨rendered, hwanted, hr⟩ := h
  obtain ⟨_, _, -, -, -, hrender⟩ := wanted_eq_ok.mp hwanted
  have hstatus := Backend.status_of_render hrender
  rw [hr]
  exact hstatus

theorem Fits.congr {r : Release} (hw : w'.surroundings = w.surroundings) (h : Alike c d)
    (hr : k.Fits w c r) : k.Fits w' d r := by
  obtain ⟨rendered, hwanted, hrest⟩ := hr
  exact ⟨rendered, (wanted_eq hw h).trans hwanted, hrest⟩

/-- Nothing in a record stands in the way of making its release: its permissions and its values
can be put together. -/
def Makeable (k : Controller) (w : World) (c : Composition) : Prop :=
  ∀ resource, w.mapper.resource c.apiKind = .ok resource →
    (owner c resource w.package).check k.account c.releaseName = .ok () ∧
      ∃ action, k.action c w.package resource = .ok action

/-- What the chart of a record renders to can be read. -/
def Legible (k : Controller) (w : World) (c : Composition) : Prop :=
  ∀ rendered, k.wanted w c = .ok rendered →
    ∃ found, Manifest.decode .outline rendered.manifest = .ok found

/-- A release that fits a record was made. -/
theorem Fits.makeable {r : Release} (h : k.Fits w c r) : k.Makeable w c := by
  obtain ⟨rendered, hwanted, -⟩ := h
  obtain ⟨resource, action, hresource, hcheck, haction, -⟩ := wanted_eq_ok.mp hwanted
  intro resource' hresource'
  obtain rfl : resource = resource' := Except.ok.inj (hresource.symm.trans hresource')
  exact ⟨hcheck, action, haction⟩

theorem Makeable.congr (hw : w'.surroundings = w.surroundings) (h : Alike c d)
    (hc : k.Makeable w c) : k.Makeable w' d := by
  intro resource hresource
  rw [show w'.mapper = w.mapper from congrArg Surroundings.mapper hw,
    apiKind_eq_of_alike h] at hresource
  rw [show w'.package = w.package from congrArg Surroundings.package hw,
    owner_eq_of_alike h, h.releaseName, action_eq_of_alike h]
  exact hc resource hresource

theorem Legible.congr (hw : w'.surroundings = w.surroundings) (h : Alike c d)
    (hc : k.Legible w c) : k.Legible w' d := by
  intro rendered hwanted
  rw [wanted_eq hw h] at hwanted
  exact hc rendered hwanted

/-- A release that fits a legible record can be read. -/
theorem Legible.decode {r : Release} (hc : k.Legible w c) (hr : k.Fits w c r) :
    ∃ found, Manifest.decode .outline r.manifest = .ok found := by
  obtain ⟨rendered, hwanted, hrendered⟩ := hr
  obtain ⟨found, hfound⟩ := hc rendered hwanted
  rw [hrendered]
  exact ⟨found, hfound⟩

/-! ## The parts of observing -/

/-- The record as observing stores it. -/
def marked (c : Composition) (d : Definition) : Composition :=
  ((c.setReleaseName c.releaseName).1.removePauseTime.1.setDefinition d).1

/-- Rolls a release back that was left pending. -/
def recover (k : Controller) (key : ReleaseKey) (release : Release) : Task Release :=
  if release.status.isStuck then
    (Task.rollback key k.historyLimit).during "rolling back release"
  else pure release

/-- Upgrades the release of a record and finds out what that changed. -/
def renew (k : Controller) (record : Composition) (name : String) (package : Package)
    (before : Release) : Task Observation := do
  let resource ← findResource record
  noted record "Observe" (k.installPermissions record name resource package)
  let action ← k.action record package resource
  let after ← noted record "Observe"
    ((Task.upgrade (releaseKey record name) package.url action k.historyLimit).during
      "upgrading helm chart")
  observeUpgraded record package before after

/-- Observes a record whose release was looked up. -/
def observeFound (k : Controller) (record : Composition) (name : String) (package : Package) :
    Option Release → Task Observation
  | none => pure .absent
  | some release => do
    let before ← k.recover (releaseKey record name) release
    k.renew record name package before

/-- Observes a record that carries its release name. -/
def observeNamed (k : Controller) (name : String) (record : Composition) :
    Task Observation := do
  let package ← findPackage record
  let (marked, defined) := record.setDefinition package.definition
  let marked ← saveIf defined marked
  let found ← findRelease marked name
  k.observeFound marked name package found

/-- Marks a record and stores it as it is marked. -/
def mark (c : Composition) : Task (Composition × Package) := do
  let record := (c.setReleaseName c.releaseName).1.removePauseTime
  let record ← saveIf ((c.setReleaseName c.releaseName).2 || record.2) record.1
  let package ← findPackage record
  let marked := record.setDefinition package.definition
  let marked ← saveIf marked.2 marked.1
  return (marked, package)

theorem bind_recover {key : ReleaseKey} {release : Release} {f : Release → Task α} :
    (if release.status.isStuck then
      (Task.rollback key k.historyLimit).during "rolling back release" >>= f
      else pure release >>= f) = k.recover key release >>= f := by
  unfold recover
  cases release.status.isStuck <;> rfl

theorem observe_of_paused (h : c.pause = .paused) :
    k.observe c = (do
      announcePaused (c.setReleaseName c.releaseName).1 "Observe"
      return .current) := by
  unfold observe
  dsimp only
  rw [if_pos ((alike_setReleaseName c).pause.trans h)]

theorem observe_of_not_paused (h : c.pause ≠ .paused) :
    k.observe c = (do
      let (named, changed) := c.setReleaseName c.releaseName
      let (record, resumed) := named.removePauseTime
      saveIf (changed || resumed) record >>= k.observeNamed c.releaseName) := by
  have hnamed : (c.setReleaseName c.releaseName).1.pause ≠ .paused := by
    rw [(alike_setReleaseName c).pause]
    exact h
  unfold observe
  dsimp only
  rw [if_neg hnamed, bind_saveIf]
  congr 1
  funext record
  unfold observeNamed
  congr 1
  funext package
  rw [bind_saveIf]
  congr 1
  funext record
  congr 1
  funext found
  cases found with
  | none => rfl
  | some release =>
      dsimp only
      rw [bind_recover]
      rfl

theorem observe_of_mark (h : c.pause ≠ .paused) :
    k.observe c = mark c >>= fun marking =>
      findRelease marking.1 c.releaseName >>=
        k.observeFound marking.1 c.releaseName marking.2 := by
  rw [observe_of_not_paused h]
  unfold mark
  simp only [Program.bind_assoc]
  rfl

/-! ## The record as it is marked -/

theorem alike_resumed (h : c.pause ≠ .paused) :
    Alike c (c.setReleaseName c.releaseName).1.removePauseTime.1 := by
  have hnamed := alike_setReleaseName c
  refine hnamed.trans (alike_removePauseTime ?_)
  rw [hnamed.pause]
  exact h

theorem alike_marked (h : c.pause ≠ .paused) (d : Definition) : Alike c (marked c d) :=
  (alike_resumed h).trans (alike_setDefinition _ d)

theorem eq_of_named_resumed {name : String}
    (h : ((c.setReleaseName name).2 || (c.setReleaseName name).1.removePauseTime.2) = false) :
    (c.setReleaseName name).1.removePauseTime.1 = c := by
  obtain ⟨hlabel, hnote⟩ := Bool.or_eq_false_iff.mp h
  rw [eq_of_removePauseTime hnote, eq_of_setReleaseName hlabel]

theorem status_marked (c : Composition) (d : Definition) : (marked c d).status = c.status := by
  unfold marked
  rw [status_setDefinition]
  exact status_setReleaseName c c.releaseName

/-! ## When a record is out of date -/

/-- The digest that a new manifest is compared with. -/
def previousDigest (record : Composition) (before : Release) : String :=
  if record.status.digest.isEmpty then Digest.ofManifest before.manifest
  else record.status.digest

/-- An upgrade changed what is installed, or a pause has to take effect. -/
def Outdated (record : Composition) (before after : Release) : Prop :=
  Digest.ofManifest after.manifest ≠ previousDigest record before ∨
    before.chartVersion ≠ after.chartVersion ∨ record.pause = .requested

/-- No other manifest than the new one is recorded where that is not out of date. -/
theorem recorded_of_not_outdated {record : Composition} {before after : Release}
    (h : ¬Outdated record before after) :
    record.status.digest = "" ∨ record.status.digest = Digest.ofManifest after.manifest := by
  have hsame : Digest.ofManifest after.manifest = previousDigest record before :=
    Classical.not_not.mp fun hne => h (Or.inl hne)
  unfold previousDigest at hsame
  by_cases hempty : record.status.digest.isEmpty = true
  · exact Or.inl (String.isEmpty_iff.mp hempty)
  · rw [if_neg hempty] at hsame
    exact Or.inr hsame.symm

/-- What the status says of a record that is found up to date. -/
def upToDateWrite (record : Composition) (package : Package) (before after : Release) :
    StatusWrite :=
  ((StatusWrite.available "Composition is up-to-date").withDigests (previousDigest record before)
    (Digest.ofManifest after.manifest)).withChart package.url package.version

/-- The record as it is stored when it is found up to date. -/
def upToDate (record : Composition) (package : Package) (before after : Release)
    (now : Instant) : Composition :=
  { record with status :=
      (record.status.apply (upToDateWrite record package before after) now).1 }

theorem outdated_iff {record : Composition} {before after : Release} :
    (Digest.ofManifest after.manifest ≠ previousDigest record before ||
      before.chartVersion ≠ after.chartVersion || record.pause = .requested : Bool) = true ↔
      Outdated record before after := by
  unfold Outdated
  rw [Bool.or_eq_true, Bool.or_eq_true, decide_eq_true_eq, decide_eq_true_eq, decide_eq_true_eq,
    or_assoc]

theorem observeUpgraded_of_outdated {before after : Release} (h : Outdated c before after) :
    observeUpgraded c package before after = pure .stale :=
  if_pos (outdated_iff.mpr h)

theorem observeUpgraded_of_not_outdated {before after : Release}
    (h : ¬Outdated c before after) :
    observeUpgraded c package before after = (do
      let (written, changed) ← writeStatus c (upToDateWrite c package before after)
      if changed then
        let _ ← saveStatus written
      return .current) :=
  if_neg (mt outdated_iff.mp h)

theorem observeUpgraded_ok {before after : Release} {o : Observation} (hc : w.Stores c)
    (h : (observeUpgraded c package before after).Ends troubled w (.ok o) w') :
    (o = .stale ∧ Outdated c before after ∧ w'.Stores c) ∨
      (o = .current ∧ ¬Outdated c before after ∧
        ∃ now, w'.Stores (upToDate c package before after now)) := by
  by_cases hout : Outdated c before after
  · rw [observeUpgraded_of_outdated hout] at h
    obtain ⟨ho, rfl⟩ := h
    exact Or.inl ⟨Except.ok.inj ho, hout, hc⟩
  · rw [observeUpgraded_of_not_outdated hout] at h
    obtain ⟨⟨written, changed⟩, w₁, hwrite, hsave⟩ := Program.ends_bind_ok.mp h
    obtain ⟨now, hwritten, hchanged⟩ := writeStatus_ok hwrite
    have hc₁ : w₁.Stores c :=
      (Leaves.same (leaves_writeStatus .records _ _) hwrite).stores hc
    refine Or.inr ?_
    cases changed with
    | false =>
        -- A status that did not change is the one that is stored.
        obtain ⟨ho, rfl⟩ := hsave
        refine ⟨Except.ok.inj ho, hout, now, ?_⟩
        have hsame : upToDate c package before after now = c := by
          unfold upToDate
          rw [show (c.status.apply (upToDateWrite c package before after) now).1 = c.status from
            Status.apply_unchanged_iff.mp hchanged.symm]
        rw [hsame]
        exact hc₁
    | true =>
        obtain ⟨stored, w₂, hstore, ho, rfl⟩ := Program.ends_bind_ok.mp hsave
        have hkey : written.key = c.key := by rw [hwritten]; rfl
        obtain ⟨hstored, hw₂⟩ := saveStatus_ok hc₁ hkey hstore
        refine ⟨Except.ok.inj ho, hout, now, ?_⟩
        rw [hstored, hwritten] at hw₂
        exact hw₂

theorem clerical_observeUpgraded (c : Composition) (package : Package) (before after : Release) :
    (observeUpgraded c package before after).Only Port.Call.Clerical := by
  by_cases hout : Outdated c before after
  · rw [observeUpgraded_of_outdated hout]
    exact Program.only_pure
  · rw [observeUpgraded_of_not_outdated hout]
    refine Program.only_bind (inert_writeStatus _ _).clerical fun written => ?_
    obtain ⟨written, changed⟩ := written
    cases changed with
    | false => exact Program.only_pure
    | true => exact Program.only_bind (clerical_saveStatus _) fun _ => Program.only_pure

theorem leaves_observeUpgraded {x : Holding} (hx : x ≠ .records) (c : Composition)
    (package : Package) (before after : Release) :
    Leaves x (observeUpgraded c package before after) :=
  leaves_of_clerical hx (clerical_observeUpgraded c package before after)

/-! ## What observing did -/

/-- What was found out about the release of a stored record, and how the world looks then. -/
inductive Found (k : Controller) (record : Composition) (w w' : World) : Observation → Prop
  /-- There is no release. -/
  | absent (none : w.backend.current? (releaseKey record record.releaseName) = none)
      (releases : Same .releases w w') (stored : w'.Stores record) : Found k record w w' .absent
  /-- The release was upgraded, and the record has to be brought up to date. -/
  | stale (found before after : Release)
      (current : w.backend.current? (releaseKey record record.releaseName) = some found)
      (kept : found.status.isStuck = false → before = found) (fits : k.Fits w record after)
      (upgraded : w'.backend.current? (releaseKey record record.releaseName) = some after)
      (outdated : Outdated record before after) (stored : w'.Stores record) :
      Found k record w w' .stale
  /-- The release was upgraded, and the record is up to date. -/
  | current (found before after : Release)
      (current : w.backend.current? (releaseKey record record.releaseName) = some found)
      (kept : found.status.isStuck = false → before = found) (fits : k.Fits w record after)
      (upgraded : w'.backend.current? (releaseKey record record.releaseName) = some after)
      (same : ¬Outdated record before after) (now : Instant)
      (stored : w'.Stores (upToDate record w.package before after now)) :
      Found k record w w' .current

/-- What comes before the look-up does not matter as long as it leaves the releases alone. -/
theorem Found.after {w₁ : World} {o : Observation} (h : Found k c w₁ w' o)
    (hreleases : Same .releases w w₁) (hw : w₁.surroundings = w.surroundings) :
    Found k c w w' o := by
  cases h with
  | absent none releases stored =>
      rw [hreleases.current?] at none
      exact .absent none (hreleases.trans releases) stored
  | stale found before after current kept fits upgraded outdated stored =>
      rw [hreleases.current?] at current
      exact .stale found before after current kept (fits.congr hw.symm (Alike.refl c)) upgraded
        outdated stored
  | current found before after current kept fits upgraded same now stored =>
      rw [hreleases.current?] at current
      rw [show w₁.package = w.package from congrArg Surroundings.package hw] at stored
      exact .current found before after current kept (fits.congr hw.symm (Alike.refl c)) upgraded
        same now stored

theorem recover_ok {key : ReleaseKey} {found before : Release}
    (hfound : w.backend.current? key = some found)
    (h : (k.recover key found).Ends troubled w (.ok before) w') :
    (found.status.isStuck = false → before = found) ∧ w'.backend.current? key = some before := by
  unfold recover at h
  by_cases hstuck : found.status.isStuck = true
  · rw [if_pos hstuck] at h
    refine ⟨fun hfine => ?_, (Task.rollback_ok (Program.ends_during_ok.mp h)).2⟩
    rw [hstuck] at hfine
    exact nomatch hfine
  · rw [if_neg hstuck] at h
    obtain ⟨hbefore, rfl⟩ := h
    obtain rfl := Except.ok.inj hbefore
    exact ⟨fun _ => rfl, hfound⟩

theorem leaves_recover {x : Holding} (hx : x ≠ .releases) (k : Controller) (key : ReleaseKey)
    (release : Release) : Leaves x (k.recover key release) := by
  unfold recover
  split
  · exact Program.only_during (Task.leaves_rollback hx key k.historyLimit)
  · exact Program.only_pure

theorem sure_recover (k : Controller) (w : World) (key : ReleaseKey) (release : Release) :
    Program.Sure serving w (k.recover key release) := by
  unfold recover
  split
  · exact Program.sure_during (Program.sure_ask _)
  · exact Program.sure_pure

/-- Renewing gives a release that fits the record, and writes nothing before it compares that with
the one before. -/
theorem renew_cut {before : Release} {o : Observation}
    (h : (k.renew c c.releaseName w.package before).Ends troubled w (.ok o) w') :
    ∃ after w₁, k.Fits w c after ∧ w₁.surroundings = w.surroundings ∧ w₁.store = w.store ∧
      w₁.backend.current? (releaseKey c c.releaseName) = some after ∧
      (observeUpgraded c w.package before after).Ends troubled w₁ (.ok o) w' := by
  unfold renew at h
  obtain ⟨resource, w₁, hresource, h₁⟩ := Program.ends_bind_ok.mp h
  obtain ⟨_, _, hpermissions, h₂⟩ := Program.ends_bind_ok.mp h₁
  obtain ⟨action, w₂, ⟨haction, rfl⟩, h₃⟩ := Program.ends_bind_ok.mp h₂
  obtain ⟨after, w₃, hupgrade, h₄⟩ := Program.ends_bind_ok.mp h₃
  replace hpermissions := noted_ok hpermissions
  replace hupgrade := Program.ends_during_ok.mp (noted_ok hupgrade)
  have hsurroundings : w₂.surroundings = w.surroundings :=
    (surroundings_ends hpermissions).trans (surroundings_ends hresource)
  have hstore : w₃.store = w.store := by
    rw [(Task.leaves_upgrade (by decide) _ _ _ _).store hupgrade,
      (leaves_installPermissions (by decide) _ _ _ _ _).store hpermissions,
      (leaves_findResource .records c).store hresource]
  obtain ⟨rendered, current, hrender, -, hafter, hcurrent⟩ := Task.upgrade_ok hupgrade
  rw [render_eq_of_surroundings hsurroundings] at hrender
  have hwanted : k.wanted w c = .ok rendered :=
    wanted_eq_ok.mpr ⟨resource, action, findResource_ok hresource,
      installPermissions_ok hpermissions, haction.symm, hrender⟩
  exact ⟨after, w₃, ⟨rendered, hwanted, by rw [hafter]⟩,
    (surroundings_ends hupgrade).trans hsurroundings, hstore, hcurrent, h₄⟩

theorem renew_ok {before : Release} {o : Observation} (hc : w.Stores c)
    (h : (k.renew c c.releaseName w.package before).Ends troubled w (.ok o) w') :
    ∃ after, k.Fits w c after ∧
      w'.backend.current? (releaseKey c c.releaseName) = some after ∧
      ((o = .stale ∧ Outdated c before after ∧ w'.Stores c) ∨
        (o = .current ∧ ¬Outdated c before after ∧
          ∃ now, w'.Stores (upToDate c w.package before after now))) := by
  obtain ⟨after, w₁, hfits, -, hstore, hcurrent, hrest⟩ := renew_cut h
  have hc₁ : w₁.Stores c := by
    unfold Stores
    rw [hstore]
    exact hc
  refine ⟨after, hfits, ?_, observeUpgraded_ok hc₁ hrest⟩
  rw [((leaves_observeUpgraded (by decide) _ _ _ _).same hrest).current?]
  exact hcurrent

theorem observeFound_ok {found : Option Release} {o : Observation} (hc : w.Stores c)
    (hfound : w.backend.current? (releaseKey c c.releaseName) = found)
    (h : (k.observeFound c c.releaseName w.package found).Ends troubled w (.ok o) w') :
    Found k c w w' o := by
  cases found with
  | none =>
      obtain ⟨ho, rfl⟩ := h
      rw [Except.ok.inj ho]
      exact .absent hfound (same_refl _ w') hc
  | some release =>
      obtain ⟨before, w₁, hrecover, hrenew⟩ := Program.ends_bind_ok.mp h
      have hw := surroundings_ends hrecover
      have hc₁ := ((leaves_recover (by decide) k _ release).same hrecover).stores hc
      have hkept := (recover_ok hfound hrecover).1
      have hpackage : w₁.package = w.package := congrArg Surroundings.package hw
      rw [← hpackage] at hrenew
      obtain ⟨after, hfits, hcurrent, hrest⟩ := renew_ok hc₁ hrenew
      replace hfits := hfits.congr hw.symm (Alike.refl c)
      rcases hrest with ⟨rfl, hout, hw'⟩ | ⟨rfl, hout, now, hw'⟩
      · exact .stale release before after hfound hkept hfits hcurrent hout hw'
      · rw [hpackage] at hw'
        exact .current release before after hfound hkept hfits hcurrent hout now hw'

theorem saveResumed_ok {stored : Composition} (hc : w.Stores c) (hpause : c.pause ≠ .paused)
    (h : (saveIf ((c.setReleaseName c.releaseName).2 ||
        (c.setReleaseName c.releaseName).1.removePauseTime.2)
      (c.setReleaseName c.releaseName).1.removePauseTime.1).Ends troubled w (.ok stored) w') :
    stored = (c.setReleaseName c.releaseName).1.removePauseTime.1 ∧ w'.Stores stored := by
  have hresumed := alike_resumed hpause
  have hstatus : (c.setReleaseName c.releaseName).1.removePauseTime.1.status = c.status :=
    status_setReleaseName c c.releaseName
  obtain ⟨rfl, hc'⟩ := saveIf_ok hc eq_of_named_resumed hresumed.key
    ⟨hresumed.apiVersion, hresumed.kind⟩ hstatus h
  exact ⟨rfl, hc'⟩

theorem saveDefined_ok {definition : Definition} {stored : Composition} (hc : w.Stores c)
    (h : (saveIf (c.setDefinition definition).2 (c.setDefinition definition).1).Ends troubled w
      (.ok stored) w') :
    stored = (c.setDefinition definition).1 ∧ w'.Stores stored := by
  have hdefined := alike_setDefinition c definition
  obtain ⟨rfl, hc'⟩ := saveIf_ok hc eq_of_setDefinition hdefined.key
    ⟨hdefined.apiVersion, hdefined.kind⟩ (status_setDefinition c definition) h
  exact ⟨rfl, hc'⟩

/-- What marking gave is the marked record, which is the stored one then. -/
theorem mark_ok {record : Composition} (hc : w.Stores c) (hpause : c.pause ≠ .paused)
    (h : (mark c).Ends troubled w (.ok (record, package)) w') :
    record = marked c w.package.definition ∧ package = w.package ∧ w'.Stores record := by
  unfold mark at h
  obtain ⟨resumed, w₁, hsave, h₁⟩ := Program.ends_bind_ok.mp h
  obtain ⟨found, w₂, hpackage, h₂⟩ := Program.ends_bind_ok.mp h₁
  obtain ⟨stored, w₃, hdefine, hmarking, rfl⟩ := Program.ends_bind_ok.mp h₂
  obtain ⟨rfl, rfl⟩ := Prod.mk.inj (Except.ok.inj hmarking)
  obtain ⟨hresumed, hc₁⟩ := saveResumed_ok hc hpause hsave
  have hc₂ := ((leaves_findPackage .records _).same hpackage).stores hc₁
  obtain ⟨hstored, hc₃⟩ := saveDefined_ok hc₂ hdefine
  have hfound : package = w.package :=
    (findPackage_ok hpackage).trans (congrArg Surroundings.package (surroundings_ends hsave))
  refine ⟨?_, hfound, hc₃⟩
  rw [hstored, hresumed, hfound]
  rfl

theorem clerical_mark (c : Composition) : (mark c).Only Port.Call.Clerical := by
  refine Program.only_bind (clerical_saveIf _ _) fun record => ?_
  refine Program.only_bind (inert_findPackage record).clerical fun package => ?_
  exact Program.only_bind (clerical_saveIf _ _) fun _ => Program.only_pure

theorem leaves_mark {x : Holding} (hx : x ≠ .records) (c : Composition) : Leaves x (mark c) :=
  leaves_of_clerical hx (clerical_mark c)

/-- **What observing did.** A paused record was left alone. Any other was marked, and its release
looked up and brought to what the record asks for. -/
theorem observe_ok {o : Observation} (hc : w.Stores c)
    (h : (k.observe c).Ends troubled w (.ok o) w') :
    (c.pause = .paused ∧ o = .current ∧ Same .records w w' ∧ Same .releases w w') ∨
      (c.pause ≠ .paused ∧ Found k (marked c w.package.definition) w w' o) := by
  by_cases hpause : c.pause = .paused
  · rw [observe_of_paused hpause] at h
    obtain ⟨_, w₁, hannounce, ho, rfl⟩ := Program.ends_bind_ok.mp h
    exact Or.inl ⟨hpause, Except.ok.inj ho, (Task.leaves_announce .records _ _).same hannounce,
      (Task.leaves_announce .releases _ _).same hannounce⟩
  · refine Or.inr ⟨hpause, ?_⟩
    rw [observe_of_mark hpause] at h
    have halike := alike_marked hpause w.package.definition
    obtain ⟨⟨record, package⟩, w₁, hmark, h₁⟩ := Program.ends_bind_ok.mp h
    obtain ⟨found, w₂, hfind, h₂⟩ := Program.ends_bind_ok.mp h₁
    obtain ⟨rfl, rfl, hc₁⟩ := mark_ok hc hpause hmark
    dsimp only at hfind h₂
    have hc₂ := ((leaves_findRelease .records _ _).same hfind).stores hc₁
    have hreleases₂ : Same .releases w₁ w₂ := (leaves_findRelease _ _ _).same hfind
    have hw : w₂.surroundings = w.surroundings :=
      (surroundings_ends hfind).trans (surroundings_ends hmark)
    have hpackage : w₂.package = w.package := congrArg Surroundings.package hw
    have hfound : w₂.backend.current? (releaseKey (marked c w.package.definition)
        (marked c w.package.definition).releaseName) = found := by
      rw [hreleases₂.current?, halike.releaseName]
      exact (findRelease_ok hfind).symm
    have h₃ : (k.observeFound (marked c w.package.definition)
        (marked c w.package.definition).releaseName w₂.package found).Ends troubled w₂ (.ok o)
          w' := by
      rw [halike.releaseName, hpackage]
      exact h₂
    have hreleases : Same .releases w w₂ :=
      ((leaves_mark (by decide) c).same hmark).trans hreleases₂
    exact (observeFound_ok hc₂ hfound h₃).after hreleases hw

/-! ## When observing cannot fail -/

theorem sure_observeUpgraded (w : World) (c : Composition) (package : Package)
    (before after : Release) :
    Program.Sure serving w (observeUpgraded c package before after) := by
  by_cases hout : Outdated c before after
  · rw [observeUpgraded_of_outdated hout]
    exact Program.sure_pure
  · rw [observeUpgraded_of_not_outdated hout]
    refine Program.sure_bind (sure_writeStatus w c _) fun written _ _ => ?_
    obtain ⟨written, changed⟩ := written
    cases changed with
    | false => exact Program.sure_pure
    | true =>
        exact Program.sure_bind (sure_saveStatus _ _) fun _ _ _ => Program.sure_pure

theorem sure_renew {before : Release} (hc : k.Makeable w c) :
    Program.Sure serving w (k.renew c c.releaseName w.package before) := by
  refine Program.sure_bind (sure_findResource w c) fun resource w₁ hresource => ?_
  obtain ⟨hcheck, action, haction⟩ :=
    hc resource (findResource_ok (troubled_of_serving hresource))
  refine Program.sure_bind (sure_noted (sure_installPermissions hcheck w₁)) fun _ w₂ _ => ?_
  refine Program.sure_bind (Program.sure_lift haction) fun action w₃ _ => ?_
  refine Program.sure_bind (sure_noted (Program.sure_during (Program.sure_ask _))) ?_
  intro after w₄ _
  exact sure_observeUpgraded w₄ c w.package before after

theorem sure_observeFound {found : Option Release} (hc : k.Makeable w c) :
    Program.Sure serving w (k.observeFound c c.releaseName w.package found) := by
  cases found with
  | none => exact Program.sure_pure
  | some release =>
      refine Program.sure_bind (sure_recover k w _ release) fun before w₁ hrecover => ?_
      have hw := surroundings_ends (troubled_of_serving hrecover)
      rw [show w.package = w₁.package from (congrArg Surroundings.package hw).symm]
      exact sure_renew (hc.congr hw (Alike.refl c))

theorem sure_observeNamed (hstored : w.Stores c) (hname : c.releaseName = name)
    (hc : k.Makeable w c) : Program.Sure serving w (k.observeNamed name c) := by
  refine Program.sure_bind (sure_findPackage w c) fun package w₁ hpackage => ?_
  replace hpackage := troubled_of_serving hpackage
  rw [findPackage_ok hpackage]
  have halike := alike_setDefinition c w.package.definition
  have hstatus := status_setDefinition c w.package.definition
  have hsame := eq_of_setDefinition (c := c) (d := w.package.definition)
  generalize c.setDefinition w.package.definition = marking at halike hstatus hsame ⊢
  obtain ⟨record, defined⟩ := marking
  refine Program.sure_bind (sure_saveIf w₁ defined record) fun stored w₂ hdefine => ?_
  replace hdefine := troubled_of_serving hdefine
  have hstored₁ := ((leaves_findPackage .records _).same hpackage).stores hstored
  obtain ⟨rfl, -⟩ := saveIf_ok hstored₁ hsame halike.key ⟨halike.apiVersion, halike.kind⟩ hstatus
    hdefine
  refine Program.sure_bind (sure_findRelease w₂ _ _) fun found w₃ hfind => ?_
  have hw : w₃.surroundings = w.surroundings := by
    rw [surroundings_ends (troubled_of_serving hfind), surroundings_ends hdefine,
      surroundings_ends hpackage]
  rw [← hname, ← halike.releaseName,
    show w.package = w₃.package from (congrArg Surroundings.package hw).symm]
  exact sure_observeFound (hc.congr hw halike)

/-- Observing a record succeeds as long as no call fails, if its release can be made. -/
theorem sure_observe (hstored : w.Stores c) (hc : c.pause = .paused ∨ k.Makeable w c) :
    Program.Sure serving w (k.observe c) := by
  by_cases hpause : c.pause = .paused
  · rw [observe_of_paused hpause]
    exact Program.sure_bind (Task.sure_announce w _ _) fun _ _ _ => Program.sure_pure
  · replace hc := hc.resolve_left hpause
    rw [observe_of_not_paused hpause]
    have hresumed := alike_resumed hpause
    have hstatus : (c.setReleaseName c.releaseName).1.removePauseTime.1.status = c.status :=
      status_setReleaseName c c.releaseName
    refine Program.sure_bind (sure_saveIf w _ _) fun stored w₁ hsave => ?_
    replace hsave := troubled_of_serving hsave
    obtain ⟨rfl, hstored₁⟩ := saveIf_ok hstored eq_of_named_resumed hresumed.key
      ⟨hresumed.apiVersion, hresumed.kind⟩ hstatus hsave
    exact sure_observeNamed hstored₁ hresumed.releaseName
      (hc.congr (surroundings_ends hsave) hresumed)

end Chartkeeper.Controller
