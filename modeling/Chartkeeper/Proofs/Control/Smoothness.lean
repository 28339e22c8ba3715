import Chartkeeper.Proofs.Control.Calm
import Chartkeeper.Proofs.Json.Basic
/-!
# Passes during which no call fails

In a calm world a call fails only where there is nothing to answer it with. Over a record whose
release can be rendered and described no call of a pass is of that kind: whatever it asks for is
there from the start, or was put in place by the calls before it.

- `Deployable`: a record whose release can be rendered and described.
- `unfailing_reconcile`: no call of a pass over such a record fails, by one lemma for each part of
  a pass.
- `finds_of_documents?`: how the condition is checked for a given record.
-/

namespace Chartkeeper.Controller

open World Chartkeeper.Composition

variable {k : Controller} {w w' : World} {c d : Composition} {name : String}
  {resource : ApiResource} {package : Package} {rendered release : Release}
  {managed : List ManagedResource} {digest : String}

/-- The release that a record asks for can be rendered, and what it renders to described. -/
def Deployable (k : Controller) (w : World) (c : Composition) : Prop :=
  ∃ managed digest, k.Finds w c managed digest

theorem Deployable.congr (hw : w'.surroundings = w.surroundings) (halike : Alike c d)
    (h : k.Deployable w c) : k.Deployable w' d := by
  obtain ⟨managed, digest, hfinds⟩ := h
  exact ⟨managed, digest, hfinds.congr hw halike⟩

theorem Deployable.wanted (h : k.Deployable w c) : ∃ rendered, k.wanted w c = .ok rendered := by
  obtain ⟨_, _, _, ⟨rendered, hwanted, -⟩, -⟩ := h
  exact ⟨rendered, hwanted⟩

/-- Whichever revision its release has, it can be described. -/
theorem Deployable.describes (h : k.Deployable w c) (hfits : k.Fits w c release) :
    ∃ managed digest, Describes w release managed digest := by
  obtain ⟨managed, digest, r, hfits', hdescribed⟩ := h
  exact ⟨managed, digest, hdescribed.of_fits hfits' hfits⟩

/-- Nothing stands in the way of such a record. -/
theorem Deployable.makeable (h : k.Deployable w c) : k.Makeable w c := by
  obtain ⟨_, _, r, hfits, -⟩ := h
  exact hfits.makeable

theorem Deployable.legible (h : k.Deployable w c) : k.Legible w c := by
  obtain ⟨_, _, r, hfits, hdescribed⟩ := h
  exact hdescribed.legible hfits

/-! ## Observing -/

/-- Nothing is noted where nothing fails. -/
theorem unfailing_noted {α : Type} {operation : String} {p : Task α} (hp : Unfailing w p)
    (hsure : Program.Sure serving w p) : Unfailing w (noted c operation p) := by
  refine unfailing_bind (unfailing_outcome hp) fun r w₁ houtcome => ?_
  obtain ⟨r₀, hends, hr⟩ := Program.ends_outcome.mp houtcome
  obtain rfl := Except.ok.inj hr
  obtain ⟨a, rfl⟩ := hsure hends
  exact unfailing_pure

theorem unfailing_observeUpgraded (h : w.Calm) (hc : w.Stores c) (package : Package)
    (before after : Release) : Unfailing w (observeUpgraded c package before after) := by
  by_cases hout : Outdated c before after
  · rw [observeUpgraded_of_outdated hout]
    exact unfailing_pure
  · rw [observeUpgraded_of_not_outdated hout]
    refine h.unfailing_ready_bind (ready_writeStatus _ _) fun written w₁ h₁ hwrite => ?_
    obtain ⟨written, changed⟩ := written
    obtain ⟨now, rfl, -⟩ := writeStatus_ok hwrite
    cases changed with
    | false => exact unfailing_pure
    | true =>
        have hc₁ := ((leaves_writeStatus _ _ _).same hwrite).stores hc
        exact unfailing_bind (unfailing_saveStatus h₁ hc₁ rfl) fun _ _ _ => unfailing_pure

theorem unfailing_recover {key : ReleaseKey} (h : w.Calm)
    (hfound : w.backend.current? key = some release) : Unfailing w (k.recover key release) := by
  unfold recover
  split
  · exact unfailing_during (unfailing_ask (Backend.rollback_of_calm h.backend hfound))
  · exact unfailing_pure

/-- A release that is there and can be rendered is upgraded. -/
theorem unfailing_renew {before : Release} (h : w.Calm) (hc : w.Stores c)
    (hwanted : k.wanted w c = .ok rendered)
    (hcurrent : w.backend.current? (releaseKey c c.releaseName) = some release) :
    Unfailing w (k.renew c c.releaseName w.package before) := by
  obtain ⟨resource, action, hresource, hcheck, haction, hrender⟩ := wanted_eq_ok.mp hwanted
  refine h.unfailing_bind (unfailing_findResource hresource) fun served w₁ h₁ hfind => ?_
  obtain rfl : served = resource := Except.ok.inj ((findResource_ok hfind).symm.trans hresource)
  refine h₁.unfailing_bind (unfailing_noted (unfailing_of_ready ready_installPermissions h₁)
    (sure_installPermissions hcheck w₁)) fun _ mid hmid hpermissions => ?_
  replace hpermissions := noted_ok hpermissions
  refine hmid.unfailing_bind unfailing_lift fun action' w₂ h₂ hlift => ?_
  obtain ⟨haction', rfl⟩ := hlift
  obtain rfl : action' = action := Except.ok.inj (haction'.trans haction)
  have hw₂ : w₂.surroundings = w.surroundings :=
    (surroundings_ends hpermissions).trans (surroundings_ends hfind)
  have hcurrent₂ : w₂.backend.current? (releaseKey c c.releaseName) = some release := by
    rw [((leaves_installPermissions (by decide) _ _ _ _ _).same hpermissions).current?,
      ((leaves_findResource _ _).same hfind).current?]
    exact hcurrent
  have hupgrade : ∃ r, (w₂.backend.upgrade (releaseKey c c.releaseName) w.package.url action'
      k.historyLimit).1 = .ok r :=
    Backend.upgrade_of_calm h₂.backend ((render_eq_of_surroundings hw₂ _ _ _).trans hrender)
      hcurrent₂
  refine h₂.unfailing_bind (unfailing_noted (unfailing_during (unfailing_ask hupgrade))
    (Program.sure_during (Program.sure_ask _))) fun after w₃ h₃ hafter => ?_
  have hc₂ : w₂.Stores c :=
    ((leaves_installPermissions (by decide) _ _ _ _ _).same hpermissions).stores
      (((leaves_findResource _ _).same hfind).stores hc)
  have hc₃ : w₃.Stores c := ((Task.leaves_upgrade (by decide) _ _ _ _).same
    (Program.ends_during_ok.mp (noted_ok hafter))).stores hc₂
  exact unfailing_observeUpgraded h₃ hc₃ _ _ _

theorem ready_mark (c : Composition) : (mark c).Only Port.Call.Ready := by
  refine Program.only_bind (ready_saveIf _ _) fun record => ?_
  refine Program.only_bind (ready_findPackage record) fun package => ?_
  exact Program.only_bind (ready_saveIf _ _) fun _ => Program.only_pure

theorem unfailing_observe (h : w.Calm) (hc : w.Stores c) (hpause : c.pause ≠ .paused)
    (hdeployable : k.Deployable w c) : Unfailing w (k.observe c) := by
  rw [observe_of_mark hpause]
  refine h.unfailing_ready_bind (ready_mark c) fun marking w₁ h₁ hmark => ?_
  obtain ⟨record, package⟩ := marking
  obtain ⟨hrecord, hpackage, hc₁⟩ := mark_ok hc hpause hmark
  have halike : Alike c record := hrecord ▸ alike_marked hpause w.package.definition
  refine h₁.unfailing_ready_bind (ready_findRelease _ _) fun found w₂ h₂ hfind => ?_
  cases found with
  | none => exact unfailing_pure
  | some release =>
      have hcurrent : w₂.backend.current? (releaseKey record c.releaseName) = some release := by
        rw [((leaves_findRelease _ _ _).same hfind).current?]
        exact (findRelease_ok hfind).symm
      refine h₂.unfailing_bind (unfailing_recover h₂ hcurrent) fun before w₃ h₃ hrecover => ?_
      obtain ⟨-, hbefore⟩ := recover_ok hcurrent hrecover
      have hw₃ : w₃.surroundings = w.surroundings := by
        rw [surroundings_ends hrecover, surroundings_ends hfind, surroundings_ends hmark]
      have hc₃ : w₃.Stores record :=
        ((leaves_recover (by decide) _ _ _).same hrecover).stores
          (((leaves_findRelease _ _ _).same hfind).stores hc₁)
      obtain ⟨rendered, hwanted⟩ := (hdeployable.congr hw₃ halike).wanted
      rw [← halike.releaseName] at hbefore ⊢
      dsimp only
      rw [hpackage, ← show w₃.package = w.package from congrArg Surroundings.package hw₃]
      exact unfailing_renew h₃ hc₃ hwanted hbefore

/-! ## Creating and updating -/

theorem unfailing_create (h : w.Calm) (hd : w.Stores d) (halike : Alike c d)
    (hstatus : d.status = c.status) (hpause : c.pause ≠ .paused)
    (hdeployable : k.Deployable w c) : Unfailing w (k.create c) := by
  rw [create_of_not_paused hpause]
  refine h.unfailing_ready_bind (ready_saveIf _ _) fun record w₁ h₁ hsave => ?_
  obtain ⟨hrecord, e, he, hce, -⟩ := saveNamed_ok hd halike hstatus hsave
  have hnamed : Alike c record := hrecord ▸ alike_setReleaseName c
  refine h₁.unfailing_ready_bind (ready_findPackage _) fun package w₂ h₂ hpackage => ?_
  have hw₂ := surroundings_ends hpackage
  have hdeployable₂ := hdeployable.congr (hw₂.trans (surroundings_ends hsave)) hnamed
  have hsame : w₂.package = w₁.package := congrArg Surroundings.package hw₂
  rw [findPackage_ok hpackage, ← hsame, ← hnamed.releaseName]
  obtain ⟨rendered, hwanted⟩ := hdeployable₂.wanted
  refine h₂.unfailing_bind (unfailing_make h₂ hwanted) fun release w₃ h₃ hmake => ?_
  have hw₃ := surroundings_ends hmake
  obtain ⟨hfits, -⟩ := make_ok rfl hmake
  obtain ⟨managed, digest, hdescribed⟩ := hdeployable₂.describes hfits
  have he₃ : w₃.Stores e :=
    (((leaves_findPackage _ _).same hpackage).trans
      ((leaves_make (by decide) (by decide) _ _ _ _).same hmake)).stores he
  exact unfailing_recordCreated h₃ he₃ (hnamed.key.trans hce.key.symm) (hdescribed.congr hw₃)

/-- A record that can be deployed is created in a calm world. -/
theorem sure_create_of_calm (h : w.Calm) (hc : w.Stores c) (hpause : c.pause ≠ .paused)
    (hdeployable : k.Deployable w c) : Program.Sure answers w (k.create c) := by
  intro r w' he
  have hends := unfailing_create h hc (Alike.refl c) rfl hpause hdeployable he
  rcases create_stops hc (Alike.refl c) rfl hpause hdeployable.makeable hends with
    hok | ⟨release, -, hfits, hunread, -⟩
  · exact ⟨(), hok⟩
  · exact absurd (hdeployable.legible.decode hfits) hunread

theorem unfailing_enterPause {write : StatusWrite} (h : w.Calm) (hd : w.Stores d) :
    Unfailing w (enterPause d write) := by
  refine h.unfailing_ready_bind (Program.only_ask trivial) fun noted w₁ h₁ hnow => ?_
  refine h₁.unfailing_ready_bind (ready_writeStatus _ _) fun written w₂ h₂ hwrite => ?_
  obtain ⟨written, changed⟩ := written
  obtain ⟨now, rfl, -⟩ := writeStatus_ok hwrite
  have hd₂ : w₂.Stores d := ((Task.leaves_now _).same hnow |>.trans
    ((leaves_writeStatus _ _ _).same hwrite)).stores hd
  cases changed with
  | false => exact h₂.unfailing_ready_bind (ready_announce _ _) fun _ _ _ _ => unfailing_pure
  | true =>
      refine h₂.unfailing_bind (unfailing_saveStatus h₂ hd₂ rfl) fun _ w₃ h₃ _ => ?_
      exact h₃.unfailing_ready_bind (ready_announce _ _) fun _ _ _ _ => unfailing_pure

theorem unfailing_settle {write : StatusWrite} (h : w.Calm) (hd : w.Stores d) :
    Unfailing w (settle d write) := by
  unfold settle
  cases d.wantsPause with
  | false =>
      refine h.unfailing_bind unfailing_pure fun record w₁ h₁ _ => ?_
      exact h₁.unfailing_ready_bind (ready_saveRecord _) fun _ _ _ _ => unfailing_pure
  | true =>
      refine h.unfailing_bind (unfailing_enterPause h hd) fun record w₁ h₁ _ => ?_
      exact h₁.unfailing_ready_bind (ready_saveRecord _) fun _ _ _ _ => unfailing_pure

theorem unfailing_update (h : w.Calm) (hd : w.Stores d) (halike : Alike c d)
    (hpause : c.pause ≠ .paused)
    (hcurrent : w.backend.current? (releaseKey c c.releaseName) = some release)
    (hdescribed : Describes w release managed digest) : Unfailing w (update c) := by
  rw [update_of_not_paused hpause]
  refine h.unfailing_ready_bind (ready_findPackage _) fun package w₁ h₁ hpackage => ?_
  refine h₁.unfailing_ready_bind (ready_findRelease _ _) fun found w₂ h₂ hfind => ?_
  obtain rfl : found = some release := by
    rw [findRelease_ok hfind, ((leaves_findPackage _ _).same hpackage).current?]
    exact hcurrent
  have hw₂ : w₂.surroundings = w.surroundings :=
    (surroundings_ends hfind).trans (surroundings_ends hpackage)
  refine h₂.unfailing_bind (unfailing_describe (hdescribed.congr hw₂))
    fun found w₃ h₃ hdescribe => ?_
  refine h₃.unfailing_ready_bind (ready_announce _ _) fun _ w₄ h₄ hannounce => ?_
  refine h₄.unfailing_ready_bind (ready_writeStatus _ _) fun written w₅ h₅ hwrite => ?_
  obtain ⟨written, changed⟩ := written
  obtain ⟨now, rfl, -⟩ := writeStatus_ok hwrite
  have hd₅ : w₅.Stores d :=
    ((leaves_findPackage _ _).same hpackage |>.trans
      ((leaves_findRelease _ _ _).same hfind |>.trans
        ((leaves_describe _ _).same hdescribe |>.trans
          ((Task.leaves_announce _ _ _).same hannounce |>.trans
            ((leaves_writeStatus _ _ _).same hwrite))))).stores hd
  refine h₅.unfailing_bind (unfailing_saveStatus h₅ hd₅ halike.key.symm)
    fun stored w₆ h₆ hstore => ?_
  obtain ⟨-, hstored⟩ := saveStatus_ok hd₅ (by exact halike.key.symm) hstore
  exact unfailing_settle h₆ hstored

/-! ## A pass -/

theorem unfailing_reconcile_of_paused (h : w.Calm) (hdeleting : c.isDeleting = false)
    (hpause : c.pause = .paused) : Unfailing w (k.reconcile c) := by
  rw [reconcile_of_not_deleting hdeleting, observe_of_paused hpause, Program.bind_assoc]
  exact h.unfailing_ready_bind (ready_announce _ _) fun _ _ _ _ => unfailing_pure

theorem unfailing_reconcile (h : w.Calm) (hc : w.Stores c) (hdeleting : c.isDeleting = false)
    (hdeployable : k.Deployable w c) : Unfailing w (k.reconcile c) := by
  by_cases hpause : c.pause = .paused
  · exact unfailing_reconcile_of_paused h hdeleting hpause
  rw [reconcile_of_not_deleting hdeleting]
  refine h.unfailing_bind (unfailing_observe h hc hpause hdeployable) fun o w₁ h₁ hobserve => ?_
  have hw₁ := surroundings_ends hobserve
  have hdeployable₁ := hdeployable.congr hw₁ (Alike.refl c)
  obtain ⟨-, hfound⟩ := (observe_ok hc hobserve).resolve_left fun hleft => hpause hleft.1
  have halike := alike_marked hpause w.package.definition
  have hstatus := status_marked c w.package.definition
  generalize marked c w.package.definition = record at halike hstatus hfound
  cases hfound with
  | absent none releases stored =>
      exact unfailing_bind (unfailing_create h₁ stored halike hstatus hpause hdeployable₁)
        fun _ _ _ => unfailing_pure
  | stale found before after current kept fits upgraded outdated stored =>
      rw [releaseKey_eq_of_alike halike, halike.releaseName] at upgraded
      obtain ⟨managed, digest, hdescribed⟩ :=
        hdeployable₁.describes (fits.congr hw₁ halike.symm)
      exact unfailing_bind (unfailing_update h₁ stored halike hpause upgraded hdescribed)
        fun _ _ _ => unfailing_pure
  | current => exact unfailing_pure

/-! ## A record that can be deployed -/

/-- The documents that the chart of a record renders to, with their labels. -/
def documents? (k : Controller) (w : World) (c : Composition) : Option (List Json) := do
  let resource ← (w.mapper.resource c.apiKind).toOption
  let _ ← ((owner c resource w.package).check k.account c.releaseName).toOption
  let action ← (k.action c w.package resource).toOption
  let chart ← w.backend.charts.get? w.package.url
  let stamp ← action.stamp
  let found ← LabelStamp.documents?
    (Template.renderText chart.template action.values c.releaseName c.namespaceName)
  return found.map stamp.stamp

theorem manifest_of_documents? {documents : List Json} (h : k.documents? w c = some documents) :
    ∃ rendered, k.wanted w c = .ok rendered ∧
      rendered.manifest = LabelStamp.streamText documents := by
  obtain ⟨resource, hresource, h₁⟩ := Option.bind_eq_some_iff.mp h
  obtain ⟨_, hcheck, h₂⟩ := Option.bind_eq_some_iff.mp h₁
  obtain ⟨action, haction, h₃⟩ := Option.bind_eq_some_iff.mp h₂
  obtain ⟨chart, hchart, h₄⟩ := Option.bind_eq_some_iff.mp h₃
  obtain ⟨stamp, hstamp, h₅⟩ := Option.bind_eq_some_iff.mp h₄
  obtain ⟨found, hfound, hdocuments⟩ := Option.bind_eq_some_iff.mp h₅
  obtain rfl := Option.some.inj hdocuments
  let version := if action.chartVersion.isEmpty then chart.version else action.chartVersion
  have hrender : w.backend.render (releaseKey c c.releaseName) w.package.url action =
      .ok (.deployed (releaseKey c c.releaseName) chart.name version
        (LabelStamp.streamText (found.map stamp.stamp))) := by
    unfold Backend.render
    rw [hchart, hstamp]
    dsimp only
    unfold LabelStamp.render
    rw [show LabelStamp.documents? (Template.renderText chart.template action.values
      (releaseKey c c.releaseName).name (releaseKey c c.releaseName).namespaceName) = some found
        from hfound]
    rfl
  exact ⟨_, wanted_eq_ok.mpr ⟨resource, action, Fault.eq_ok_of_toOption hresource,
    Fault.eq_ok_of_toOption hcheck, Fault.eq_ok_of_toOption haction, hrender⟩, rfl⟩

theorem finds_of_documents? {documents : List Json} {outlines : List Outline}
    (h : k.documents? w c = some documents)
    (hdecode : Manifest.decode .outline (LabelStamp.streamText documents) =
      .ok (outlines, digest))
    (hmanaged : ManagedResource.ofOutlines w.mapper outlines = .ok managed) :
    k.Finds w c managed digest := by
  obtain ⟨rendered, hwanted, hmanifest⟩ := manifest_of_documents? h
  rw [← hmanifest] at hdecode
  exact ⟨rendered, ⟨rendered, hwanted, rfl⟩, Manifest.digest_of_decode hdecode, outlines, hdecode,
    hmanaged⟩

/-- The object of the small chart, as it is deployed for the small record. -/
def webFields : List (String × Json) :=
  [("apiVersion", .str "composition/v1"), ("kind", .str "Web"), ("metadata", .obj [
    ("labels", .obj [
      ("krateo.io/composition-group", .str "composition"),
      ("krateo.io/composition-id", .str ""),
      ("krateo.io/composition-name", .str "shop"),
      ("krateo.io/composition-namespace", .str "apps"),
      ("krateo.io/composition-resource", .str "webs"),
      ("krateo.io/composition-version", .str "v1"),
      ("krateo.io/management-namespace", .str "platform")]),
    ("name", .str "shop"), ("namespace", .str "apps")])]

def webResource : ManagedResource :=
  ⟨"composition/v1", "webs", "shop", "apps", "/apis/composition/v1/namespaces/apps/webs/shop"⟩

/-- The text is taken by its characters, so that it is not taken apart byte by byte when this is
computed. -/
theorem decode_webFields {manifest : String}
    (h : manifest.toList = Yaml.Written.entries 0 false webFields) :
    Manifest.decode .outline manifest =
      .ok ([.of "composition/v1" "Web" "shop" "apps"], "504d5c4d584e1f5c") := by
  unfold Manifest.decode Manifest.decodeReads Text.blank Yaml.Document.ofText? Digest.bytes
  rw [h]
  exact Fault.eq_ok_of_toOption (by decide +kernel)

theorem finds_webFields
    (h : Controller.sample.documents? (World.sample webTemplate c) c = some [.obj webFields]) :
    Controller.sample.Finds (World.sample webTemplate c) c [webResource] "504d5c4d584e1f5c" := by
  have hmanaged : ManagedResource.ofOutlines (World.sample "" .sample).mapper
      [.of "composition/v1" "Web" "shop" "apps"] = .ok [webResource] :=
    Fault.eq_ok_of_toOption (by decide +kernel)
  exact finds_of_documents? h (decode_webFields String.toList_ofList) hmanaged

end Chartkeeper.Controller
