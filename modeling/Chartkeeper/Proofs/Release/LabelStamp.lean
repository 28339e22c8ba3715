import Mathlib.Data.List.Forall2
import Chartkeeper.Proofs.Json.Basic
import Chartkeeper.Proofs.Text.Lookup
import Chartkeeper.Release.LabelStamp
/-!
# What a label stamp marks

The stamp of a composition goes down two levels into every object of a manifest. Labels that are
missing or of another type are made anew, but metadata of another type end the stamping, so an
object whose metadata are null, a scalar or a list is not marked.

- `Labelled`: an object that says which composition it belongs to.
- `labelled_of_render`: which objects of a rendered manifest do.
- `unlabelled_of_null_metadata`: one that does not.
-/

namespace Chartkeeper

namespace LabelStamp

variable {s : LabelStamp} {c : Composition} {resource : ApiResource} {platform : String}
  {fields : Table Json}

/-! ## The labels of a stamp -/

/-- What an object says of the composition it belongs to. -/
def identity (c : Composition) (resource : ApiResource) (platform : String) :
    List (String × String) :=
  [("krateo.io/composition-id", c.uid),
    ("krateo.io/composition-name", c.name),
    ("krateo.io/composition-namespace", c.namespaceName),
    ("krateo.io/composition-group", resource.group),
    ("krateo.io/composition-version", resource.version),
    ("krateo.io/composition-resource", resource.resource),
    ("krateo.io/management-namespace", platform)]

theorem nodup_identity (c : Composition) (resource : ApiResource) (platform : String) :
    ((identity c resource platform).map Prod.fst).Nodup := by
  show (["krateo.io/composition-id", "krateo.io/composition-name",
    "krateo.io/composition-namespace", "krateo.io/composition-group",
    "krateo.io/composition-version", "krateo.io/composition-resource",
    "krateo.io/management-namespace"] : List String).Nodup
  decide

theorem labels_of : (LabelStamp.of c resource platform).labels =
    Table.ofRows (identity c resource platform) := by
  unfold LabelStamp.of identity
  dsimp only

theorem nodup_labels_of : (LabelStamp.of c resource platform).labels.keys.Nodup := by
  rw [labels_of]
  exact (Table.ascending_ofRows _).nodup

theorem mem_labels_of {row : String × String} (hrow : row ∈ identity c resource platform) :
    row ∈ (LabelStamp.of c resource platform).labels := by
  rw [← Table.get?_eq_some_iff nodup_labels_of, labels_of]
  exact Table.get?_foldl_insert_of_mem id (nodup_identity c resource platform) hrow

/-- Each label of a stamp is set, whatever was there before. -/
theorem get?_mark {row : String × String} (h : s.labels.keys.Nodup) (hrow : row ∈ s.labels)
    (labels : Table Json) : Table.get? row.1 (s.mark labels) = some (.str row.2) :=
  Table.get?_foldl_insert_of_mem Json.str h hrow

/-! ## Objects -/

/-- An object that carries all labels of a composition, with its values. -/
def Labelled (c : Composition) (resource : ApiResource) (platform : String) (v : Json) : Prop :=
  ∃ labels, (v.get? "metadata").bind (Json.get? "labels") = some (.obj labels) ∧
    ∀ row ∈ identity c resource platform, Table.get? row.1 labels = some (.str row.2)

/-- An object in which labels have a place: its metadata are missing, or are an object. -/
def receptive (v : Json) : Bool :=
  (v.get? "metadata").all Json.isObj

theorem receptive_obj_iff : receptive (.obj fields) = true ↔
    ∃ metadata, (Table.get? "metadata" fields).getD (.obj []) = .obj metadata := by
  unfold receptive
  show (Table.get? "metadata" fields).all Json.isObj = true ↔ _
  cases Table.get? "metadata" fields with
  | none => simp
  | some metadata => simp [Json.isObj_iff]

theorem stamp_of_metadata {metadata : Table Json}
    (h : (Table.get? "metadata" fields).getD (.obj []) = .obj metadata) :
    s.stamp (.obj fields) =
      .obj (Table.insert "metadata" (.obj (s.markMetadata metadata)) fields) := by
  unfold stamp
  simp only [h]

theorem stamp_of_not_receptive (h : ¬receptive (.obj fields) = true) :
    s.stamp (.obj fields) = .obj fields := by
  unfold stamp
  dsimp only
  split
  case h_1 metadata hmetadata => exact absurd (receptive_obj_iff.mpr ⟨metadata, hmetadata⟩) h
  case h_2 => rfl

/-- Labels have a place in every object that carries them. -/
theorem Labelled.receptive {v : Json} (h : Labelled c resource platform v) :
    receptive v = true := by
  obtain ⟨labels, hlabels, -⟩ := h
  obtain ⟨metadata, hmetadata, hlabels⟩ := Option.bind_eq_some_iff.mp hlabels
  unfold LabelStamp.receptive
  rw [hmetadata]
  exact Json.isObj_of_get? hlabels

/-- Marked metadata carry the labels, whatever their labels were. -/
theorem labelled_of_markMetadata (metadata : Table Json) :
    Labelled c resource platform (.obj (Table.insert "metadata"
      (.obj ((LabelStamp.of c resource platform).markMetadata metadata)) fields)) := by
  refine ⟨(LabelStamp.of c resource platform).mark
    (((metadata.get? "labels").bind Json.obj?).getD []), ?_, fun row hrow => ?_⟩
  · unfold markMetadata
    simp [Json.get?]
  · exact get?_mark nodup_labels_of (mem_labels_of hrow) _

theorem labelled_stamp_iff :
    Labelled c resource platform ((LabelStamp.of c resource platform).stamp (.obj fields)) ↔
      receptive (.obj fields) = true := by
  by_cases h : receptive (.obj fields) = true
  · obtain ⟨metadata, hmetadata⟩ := receptive_obj_iff.mp h
    rw [stamp_of_metadata hmetadata]
    exact iff_of_true (labelled_of_markMetadata metadata) h
  · rw [stamp_of_not_receptive h]
    exact iff_of_false (fun hlabelled => h hlabelled.receptive) h

/-- **Every object of a manifest is labelled**, whatever its labels were, except where there are
metadata that are no object. -/
theorem labelled_of_render (c : Composition) (resource : ApiResource) (platform : String)
    {manifest : String} {found : List Json} (h : documents? manifest = some found) :
    ∃ stamped, (LabelStamp.of c resource platform).render manifest = .ok (streamText stamped) ∧
      List.Forall₂ (fun v w => v.isObj = true →
        (Labelled c resource platform w ↔ receptive v = true)) found stamped := by
  refine ⟨found.map (LabelStamp.of c resource platform).stamp, ?_, ?_⟩
  · unfold render
    rw [h]
  · rw [List.forall₂_map_right_iff, List.forall₂_same]
    intro v _ hobj
    obtain ⟨fields, rfl⟩ := Json.isObj_iff.mp hobj
    exact labelled_stamp_iff

/-- A record, and how records of its kind are served. -/
def shop : Composition := .of "composition/v1" "Web" "shop" "apps"

def webs : ApiResource := ⟨"composition", "v1", "webs"⟩

/-- An object without metadata, and one whose labels are null. -/
def bare : String := "kind: ConfigMap\n---\nmetadata:\n  labels: null\n"

theorem labelled_of_render_bare : ∃ v w, documents? bare ≠ none ∧
    (LabelStamp.of shop webs "platform").render bare = .ok (streamText [v, w]) ∧
      Labelled shop webs "platform" v ∧ Labelled shop webs "platform" w := by
  have hshape : (documents? bare).map (·.map fun v => (v.isObj, receptive v)) =
      some [(true, true), (true, true)] := by
    decide +kernel
  obtain ⟨found, hfound, hshape⟩ := Option.map_eq_some_iff.mp hshape
  obtain ⟨v, rest, rfl, hv, hrest⟩ := List.map_eq_cons_iff.mp hshape
  obtain ⟨w, rfl, hw⟩ := List.map_eq_singleton_iff.mp hrest
  obtain ⟨hvobj, hvmeta⟩ := Prod.mk.inj hv
  obtain ⟨hwobj, hwmeta⟩ := Prod.mk.inj hw
  obtain ⟨stamped, hrender, hlabelled⟩ := labelled_of_render shop webs "platform" hfound
  obtain ⟨v', later, hv', hlater, rfl⟩ := List.forall₂_cons_left_iff.mp hlabelled
  obtain ⟨w', last, hw', hlast, rfl⟩ := List.forall₂_cons_left_iff.mp hlater
  obtain rfl := List.forall₂_nil_left_iff.mp hlast
  refine ⟨v', w', ?_, hrender, ?_, ?_⟩
  · rw [hfound]
    exact Option.some_ne_none _
  · exact (hv' hvobj).mpr hvmeta
  · exact (hw' hwobj).mpr hwmeta

/-- **An object whose metadata are null is not labelled**; it leaves the stamp as it was. -/
theorem unlabelled_of_null_metadata : ∃ v, documents? "metadata: null\n" = some [v] ∧
    v.isObj = true ∧
      ¬Labelled shop webs "platform" ((LabelStamp.of shop webs "platform").stamp v) := by
  have hshape : (documents? "metadata: null\n").map (·.map fun v => (v.isObj, receptive v)) =
      some [(true, false)] := by
    decide +kernel
  obtain ⟨found, hfound, hshape⟩ := Option.map_eq_some_iff.mp hshape
  obtain ⟨v, rfl, hv⟩ := List.map_eq_singleton_iff.mp hshape
  obtain ⟨hobj, hmeta⟩ := Prod.mk.inj hv
  refine ⟨v, hfound, hobj, fun hlabelled => ?_⟩
  obtain ⟨fields, rfl⟩ := Json.isObj_iff.mp hobj
  exact Bool.eq_false_iff.mp hmeta (labelled_stamp_iff.mp hlabelled)

end LabelStamp

end Chartkeeper
