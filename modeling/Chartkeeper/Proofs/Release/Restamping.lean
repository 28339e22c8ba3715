import Mathlib.Algebra.BigOperators.Group.List.Basic
import Mathlib.Algebra.Order.BigOperators.Group.List
import Mathlib.Algebra.Order.Ring.Nat
import Chartkeeper.Proofs.Release.LabelStamp
/-!
# What a label stamp leaves alone

A stamp changes the labels in the metadata of an object, and of these only its own. So a document
that is stamped again stays as it is, and so does a manifest, as far as its documents are read back
as they were written. There is one kind of document that they are not: a number for which there is
no JSON value is null, and a document that is written as null holds nothing when it is read.

- `Stamped`: how a document looks after stamping.
- `restamped_of_render`: what a rendered manifest looks like, and when rendering it again gives the
  same text.
- `restamped_not_a_number`: a manifest that is another text then.
-/

namespace Chartkeeper

namespace Table

variable {α : Type}

/-- The rows under other keys. -/
def outside (keys : List String) (t : Table α) : Table α :=
  t.filter fun row => !keys.contains row.1

theorem outside_insert {keys : List String} {key : String} (h : key ∈ keys) (value : α)
    (t : Table α) : outside keys (t.insert key value) = outside keys t :=
  filter_insert (p := fun k => !keys.contains k) (by simpa using h) t

end Table

namespace LabelStamp

variable {s : LabelStamp} {v : Json} {fields metadata : Table Json}

/-! ## Stamping a document -/

/-- The labels in metadata; there are none where they are missing or no object. -/
def labelsIn (metadata : Table Json) : Table Json :=
  ((metadata.get? "labels").bind Json.obj?).getD []

/-- The fields of an object are those of another whose labels have been stamped. -/
structure Relabelled (s : LabelStamp) (fields metadata fields' metadata' labels' : Table Json) :
    Prop where
  has_metadata : Table.get? "metadata" fields' = some (.obj metadata')
  has_labels : Table.get? "labels" metadata' = some (.obj labels')
  /-- What is not in the metadata is as before, -/
  fields_elsewhere : fields'.outside ["metadata"] = fields.outside ["metadata"]
  /-- and so is what is in the metadata and no label, -/
  metadata_elsewhere : metadata'.outside ["labels"] = metadata.outside ["labels"]
  /-- and so are the labels that the stamp does not have. -/
  labels_elsewhere : labels'.outside s.labels.keys = (labelsIn metadata).outside s.labels.keys
  stamped : s.labels.keys.Nodup → ∀ row ∈ s.labels, Table.get? row.1 labels' = some (.str row.2)

/-- How a document looks after stamping. -/
inductive Stamped (s : LabelStamp) : Json → Json → Prop
  /-- What is no object, or has metadata that are none, stays as it is. -/
  | kept {v : Json} (h : ¬(v.isObj = true ∧ receptive v = true)) : Stamped s v v
  /-- Of every other object the labels change; missing metadata count as empty. -/
  | relabelled {fields metadata fields' metadata' labels' : Table Json}
      (hmetadata : (Table.get? "metadata" fields).getD (.obj []) = .obj metadata)
      (h : Relabelled s fields metadata fields' metadata' labels') :
      Stamped s (.obj fields) (.obj fields')

theorem markMetadata_eq (s : LabelStamp) (metadata : Table Json) :
    s.markMetadata metadata = metadata.insert "labels" (.obj (s.mark (labelsIn metadata))) :=
  rfl

theorem outside_mark (s : LabelStamp) (labels : Table Json) :
    (s.mark labels).outside s.labels.keys = labels.outside s.labels.keys := by
  refine Table.filter_foldl_insert (p := fun key => !s.labels.keys.contains key) Json.str ?_
  intro row hrow
  simpa [Table.keys] using ⟨row.2, hrow⟩

theorem relabelled_markMetadata (s : LabelStamp) (fields metadata : Table Json) :
    Relabelled s fields metadata (fields.insert "metadata" (.obj (s.markMetadata metadata)))
      (s.markMetadata metadata) (s.mark (labelsIn metadata)) where
  has_metadata := Table.get?_insert_self _ _ _
  has_labels := Table.get?_insert_self _ _ _
  fields_elsewhere := Table.outside_insert (List.mem_singleton_self _) _ _
  metadata_elsewhere := Table.outside_insert (List.mem_singleton_self _) _ _
  labels_elsewhere := outside_mark s _
  stamped := fun hnodup _ hrow => get?_mark hnodup hrow _

theorem stamp_of_not_obj (h : ¬v.isObj = true) : s.stamp v = v := by
  cases v with
  | obj fields => exact absurd rfl h
  | null | bool | int | float | str | arr => rfl

/-- What stamping does to any document. -/
theorem stamp_cases (s : LabelStamp) (v : Json) :
    (¬(v.isObj = true ∧ receptive v = true) ∧ s.stamp v = v) ∨
      ∃ fields metadata, v = .obj fields ∧
        (Table.get? "metadata" fields).getD (.obj []) = .obj metadata ∧
        s.stamp v = .obj (Table.insert "metadata" (.obj (s.markMetadata metadata)) fields) := by
  by_cases hobj : v.isObj = true
  · obtain ⟨fields, rfl⟩ := Json.isObj_iff.mp hobj
    by_cases h : receptive (.obj fields) = true
    · obtain ⟨metadata, hmetadata⟩ := receptive_obj_iff.mp h
      exact Or.inr ⟨fields, metadata, rfl, hmetadata, stamp_of_metadata hmetadata⟩
    · exact Or.inl ⟨fun hboth => h hboth.2, stamp_of_not_receptive h⟩
  · exact Or.inl ⟨fun hboth => hobj hboth.1, stamp_of_not_obj hobj⟩

/-- **A stamp changes labels only.** -/
theorem stamped_stamp (s : LabelStamp) (v : Json) : Stamped s v (s.stamp v) := by
  rcases stamp_cases s v with ⟨h, hstamp⟩ | ⟨fields, metadata, rfl, hmetadata, hstamp⟩
  · rw [hstamp]
    exact .kept h
  · rw [hstamp]
    exact .relabelled hmetadata (relabelled_markMetadata s fields metadata)

/-! ## Stamping again -/

theorem markMetadata_markMetadata (s : LabelStamp) (metadata : Table Json) :
    s.markMetadata (s.markMetadata metadata) = s.markMetadata metadata := by
  have hlabels : labelsIn (s.markMetadata metadata) = s.mark (labelsIn metadata) := by
    rw [labelsIn, markMetadata_eq, Table.get?_insert_self]
    rfl
  have hmark : s.mark (s.mark (labelsIn metadata)) = s.mark (labelsIn metadata) :=
    Table.foldl_insert_self Json.str s.labels (labelsIn metadata)
  rw [markMetadata_eq s (s.markMetadata metadata), hlabels, hmark, markMetadata_eq,
    Table.insert_insert_self]

/-- **A document that is stamped stays as it is.** -/
theorem stamp_stamp (s : LabelStamp) (v : Json) : s.stamp (s.stamp v) = s.stamp v := by
  rcases stamp_cases s v with ⟨-, hstamp⟩ | ⟨fields, metadata, rfl, -, hstamp⟩
  · rw [hstamp, hstamp]
  · have hmetadata : (Table.get? "metadata"
        (Table.insert "metadata" (.obj (s.markMetadata metadata)) fields)).getD (.obj []) =
          .obj (s.markMetadata metadata) := by
      rw [Table.get?_insert_self]
      rfl
    rw [hstamp, stamp_of_metadata hmetadata, markMetadata_markMetadata, Table.insert_insert_self]

/-- Stamping makes no document null, and none another. -/
theorem isNull_stamp (s : LabelStamp) (v : Json) : (s.stamp v).isNull = v.isNull := by
  rcases stamp_cases s v with ⟨-, hstamp⟩ | ⟨fields, metadata, rfl, -, hstamp⟩
  · rw [hstamp]
  · rw [hstamp]
    rfl

/-! ## Streams of documents -/

/-- The documents of a stream are read back as they were written; one that is null is read as one
that holds nothing. -/
def ReadBack (documents : List Json) : Prop :=
  (Yaml.Document.ofText? (streamText documents)).bind (·.mapM Yaml.Document.json?) =
    some (documents.map fun v => if v.isNull then none else some v)

/-- The documents that are not null. -/
def present (documents : List Json) : List Json :=
  documents.filter fun v => !v.isNull

theorem filterMap_readBack (documents : List Json) :
    (documents.map fun v => if v.isNull then none else some v).filterMap id =
      present documents := by
  unfold present
  induction documents with
  | nil => rfl
  | cons v rest ih =>
    rw [List.map_cons, List.filterMap_cons, List.filter_cons]
    cases v.isNull with
    | true => simpa using ih
    | false => simpa using ih

theorem documents?_of_readBack {documents : List Json} (h : ReadBack documents) :
    documents? (streamText documents) = some (present documents) := by
  unfold ReadBack at h
  obtain ⟨read, hread, hvalues⟩ := Option.bind_eq_some_iff.mp h
  unfold documents?
  rw [hread]
  show (read.mapM Yaml.Document.json?).bind (fun values => some (values.filterMap id)) = _
  rw [hvalues, ← filterMap_readBack]
  rfl

/-- A stream without documents holds none when it is read. -/
theorem documents?_empty : documents? "" = some [] := by
  have hshape : (documents? "").map List.length = some 0 := by decide +kernel
  obtain ⟨found, hfound, hlength⟩ := Option.map_eq_some_iff.mp hshape
  rw [hfound, List.eq_nil_of_length_eq_zero hlength]

/-! ## How long a stream is -/

/-- Every document takes its own text and a mark, except that no mark follows the last. -/
theorem length_streamText {documents : List Json} (hne : documents ≠ []) :
    (streamText documents).length + 4 = (documents.map fun v => v.yaml.length + 4).sum := by
  induction documents with
  | nil => exact absurd rfl hne
  | cons v rest ih =>
    unfold streamText
    cases rest with
    | nil => simp
    | cons w rest =>
      have hrest := ih (List.cons_ne_nil _ _)
      unfold streamText at hrest
      rw [List.map_cons, List.map_cons, String.intercalate_cons_cons]
      rw [List.map_cons] at hrest
      simp only [String.length_append, List.map_cons, List.sum_cons] at hrest ⊢
      have hmark : "---\n".length = 4 := rfl
      omega

theorem sum_present (weight : Json → Nat) (documents : List Json) :
    ((documents.filter Json.isNull).map weight).sum + ((present documents).map weight).sum =
      (documents.map weight).sum := by
  unfold present
  simpa using List.sum_map_filter_add_sum_map_filter_not (fun v => v.isNull = true) weight documents

/-- A stream gets shorter when documents that are null are left out. -/
theorem streamText_present_iff {documents : List Json} :
    streamText (present documents) = streamText documents ↔ ∀ v ∈ documents, v.isNull = false := by
  constructor
  · intro htext v hv
    by_contra hnull
    obtain rfl : v = .null := by
      cases v with
      | null => rfl
      | bool | int | float | str | arr | obj => exact absurd rfl hnull
    have hsum := sum_present (fun v => v.yaml.length + 4) documents
    have hweight : Json.null.yaml.length + 4 ≤
        ((documents.filter Json.isNull).map fun v => v.yaml.length + 4).sum :=
      List.le_sum_of_mem (List.mem_map_of_mem (List.mem_filter.mpr ⟨hv, rfl⟩))
    have hnullText : Json.null.yaml.length = 5 := by decide +kernel
    have hlength := length_streamText (List.ne_nil_of_mem hv)
    by_cases hne : present documents = []
    · rw [hne] at htext hsum
      have hempty : (streamText documents).length = 0 := by rw [← htext]; rfl
      simp only [List.map_nil, List.sum_nil] at hsum
      omega
    · have hlength' := length_streamText hne
      rw [htext] at hlength'
      omega
  · intro h
    unfold present
    rw [List.filter_eq_self.mpr fun v hv => by simp [h v hv]]

/-! ## Rendering again -/

theorem map_stamp_present (s : LabelStamp) (documents : List Json) :
    (present (documents.map s.stamp)).map s.stamp = present (documents.map s.stamp) := by
  refine (List.map_congr_left fun w hw => ?_).trans (List.map_id _)
  obtain ⟨v, -, rfl⟩ := List.mem_map.mp (List.mem_of_mem_filter hw)
  exact stamp_stamp s v

/-- What rendering makes of a stream that it has written. -/
theorem render_streamText_stamp (s : LabelStamp) {documents : List Json}
    (hback : documents ≠ [] → ReadBack (documents.map s.stamp)) :
    s.render (streamText (documents.map s.stamp)) =
      .ok (streamText (present (documents.map s.stamp))) := by
  have hread : documents? (streamText (documents.map s.stamp)) =
      some (present (documents.map s.stamp)) := by
    by_cases hne : documents = []
    · subst hne
      exact documents?_empty
    · exact documents?_of_readBack (hback hne)
  unfold render
  rw [hread]
  dsimp only
  rw [map_stamp_present]

/-- **A manifest is rendered by stamping its documents**, each of which keeps its place and all
that is not a label of the stamp. As long as its documents are read back as they were written, it
is rendered to the same text again exactly if none of them is null. -/
theorem restamped_of_render (s : LabelStamp) :
    (∀ v, Stamped s v (s.stamp v) ∧ s.stamp (s.stamp v) = s.stamp v) ∧
    ∀ manifest text, s.render manifest = .ok text →
      ∃ found, documents? manifest = some found ∧ text = streamText (found.map s.stamp) ∧
        List.Forall₂ (Stamped s) found (found.map s.stamp) ∧
        ((found ≠ [] → ReadBack (found.map s.stamp)) →
          (s.render text = .ok text ↔ ∀ v ∈ found, v.isNull = false)) := by
  refine ⟨fun v => ⟨stamped_stamp s v, stamp_stamp s v⟩, fun manifest text hrender => ?_⟩
  unfold render at hrender
  split at hrender
  case h_2 => exact nomatch hrender
  case h_1 found hfound =>
    obtain rfl := Except.ok.inj hrender
    refine ⟨found, hfound, rfl, ?_, fun hback => ?_⟩
    · rw [List.forall₂_map_right_iff, List.forall₂_same]
      exact fun v _ => stamped_stamp s v
    · rw [render_streamText_stamp s hback, Except.ok.injEq, streamText_present_iff,
        List.forall_mem_map]
      simp only [isNull_stamp]

/-- A stamp with a single label. -/
def ownerStamp : LabelStamp := ⟨[("owner", "shop")]⟩

theorem restamped_of_render_bare : ∃ text, ownerStamp.render bare = .ok text ∧
    ownerStamp.render text = .ok text := by
  have hread : documents? bare = some [.obj [("kind", .str "ConfigMap")],
      .obj [("metadata", .obj [("labels", .null)])]] := by decide +kernel
  have hrender : ownerStamp.render bare = .ok (streamText (List.map ownerStamp.stamp
      [.obj [("kind", .str "ConfigMap")], .obj [("metadata", .obj [("labels", .null)])]])) := by
    unfold render
    rw [hread]
  obtain ⟨found, hfound, htext, -, hagain⟩ := (restamped_of_render ownerStamp).2 _ _ hrender
  obtain rfl := Option.some.inj (hread.symm.trans hfound)
  refine ⟨_, hrender, (hagain fun _ => ?_).mpr (by decide)⟩
  unfold ReadBack
  decide +kernel

/-- **A number for which there is no JSON value** is written as null, which is read back as that and
so holds nothing: the document is gone when the manifest is rendered again. -/
theorem restamped_not_a_number :
    (LabelStamp.of shop webs "platform").render ".nan\n" = .ok "null\n" ∧ ReadBack [.null] ∧
      (LabelStamp.of shop webs "platform").render "null\n" = .ok "" := by
  unfold ReadBack
  decide +kernel

end LabelStamp

end Chartkeeper
