import Chartkeeper.Manifest.Object
import Chartkeeper.Proofs.Json.Row
import Chartkeeper.Proofs.Text.Lookup
/-!
# Two forms of one object

An object that is read as an outline can be read in its free form, and the two go on giving the same
answers whatever is set in both. The free form keeps everything else: each setter works on one key
of the metadata, which are made first if there are none.

- `Outline.describes_of_ofJson?`: the answers of an object that was just read.
- `Outline.Describes.set`: what one setter does to them.
- `Outline.describes_foldl_set`: the answers after any row of setters, and what the tree keeps.
-/

namespace Chartkeeper

/-- What can be set in an object. -/
inductive Setter where
  | name (name : String)
  | namespaceName (namespaceName : String)
  | annotations (annotations : Table String)

namespace Outline

def set (o : Outline) : Setter → Outline
  | .name name => o.setName name
  | .namespaceName namespaceName => o.setNamespace namespaceName
  | .annotations annotations => o.setAnnotations annotations

end Outline

namespace FreeObject

def set (f : FreeObject) : Setter → FreeObject
  | .name name => f.setName name
  | .namespaceName namespaceName => f.setNamespace namespaceName
  | .annotations annotations => f.setAnnotations annotations

/-- The tables of an object are in order, and its metadata, if there are any, are an object. -/
structure Sound (f : FreeObject) : Prop where
  fields : f.fields.Ascending
  metadata : ∀ v, f.fields.get? "metadata" = some v → ∃ m : Table Json, v = .obj m ∧ m.Ascending

/-- Two trees differ in the name, the namespace and the annotations of the metadata at most. -/
structure SameElsewhere (f f' : FreeObject) : Prop where
  fields : ∀ key, key ≠ "metadata" → f'.fields.get? key = f.fields.get? key
  metadata : ∀ key, key ≠ "name" → key ≠ "namespace" → key ≠ "annotations" →
    f'.metadata? key = f.metadata? key

end FreeObject

/-- Both forms of an object give the same answers. -/
structure Outline.Describes (o : Outline) (f : FreeObject) : Prop where
  apiVersion : f.apiVersion = o.apiVersion
  kind : f.kind = o.kind
  name : f.name = o.name
  namespaceName : f.namespaceName = o.namespaceName
  annotations : f.annotations = o.annotations

/-! ## Tables of texts -/

namespace Json

/-- A table that reads as texts holds nothing else. -/
theorem filterMap_of_mapValues? {rows : Table Json} {t : Table String}
    (h : Table.mapValues? str? rows = some t) :
    (rows.filterMap fun row => row.2.str?.map fun s => (row.1, s)) = t := by
  induction rows generalizing t with
  | nil => exact Option.some.inj h
  | cons row rows ih =>
    obtain ⟨key, v⟩ := row
    obtain ⟨s, hs, h⟩ := Option.bind_eq_some_iff.mp h
    obtain ⟨rest, hrest, h⟩ := Option.bind_eq_some_iff.mp h
    rw [List.filterMap_cons, hs, ih hrest]
    exact Option.some.inj h

end Json

/-! ## The metadata of the free form -/

namespace FreeObject

variable {f : FreeObject}

/-- The table of the metadata, empty when there is none. -/
def metadataFields (f : FreeObject) : Table Json :=
  ((f.fields.get? "metadata").bind Json.obj?).getD []

theorem metadata?_eq (f : FreeObject) (key : String) :
    f.metadata? key = f.metadataFields.get? key := by
  unfold metadata? metadataFields
  cases f.fields.get? "metadata" with
  | none => rfl
  | some v =>
    cases v with
    | obj m => rfl
    | null | bool | int | float | str | arr => rfl

theorem annotations_of_texts? {v : Json} {t : Table String}
    (hv : f.metadata? "annotations" = some v) (ht : v.texts? = some t) : f.annotations = t := by
  unfold annotations
  rw [hv]
  cases v with
  | obj rows => exact Json.filterMap_of_mapValues? ht
  | null | bool | int | float | str | arr => exact nomatch ht

theorem fields_modifyMetadata (f : FreeObject) (edit : Table Json → Table Json) :
    (f.modifyMetadata edit).fields = f.fields.insert "metadata" (.obj (edit f.metadataFields)) :=
  rfl

@[simp] theorem metadataFields_modifyMetadata (f : FreeObject) (edit : Table Json → Table Json) :
    (f.modifyMetadata edit).metadataFields = edit f.metadataFields := by
  unfold metadataFields
  rw [fields_modifyMetadata, Table.get?_insert_self]
  rfl

theorem Sound.metadataFields (h : f.Sound) : f.metadataFields.Ascending := by
  unfold FreeObject.metadataFields
  cases hmetadata : f.fields.get? "metadata" with
  | none => exact Table.ascending_nil
  | some v =>
    obtain ⟨m, rfl, hm⟩ := h.metadata v hmetadata
    exact hm

end FreeObject

/-! ## Setters -/

/-- The one key of the metadata that a setter works on. -/
def Setter.key : Setter → String
  | .name _ => "name"
  | .namespaceName _ => "namespace"
  | .annotations _ => "annotations"

/-- What a setter does to the table of the metadata. -/
def Setter.edit : Setter → Table Json → Table Json
  | .name s, m => m.insert "name" (.str s)
  | .namespaceName s, m => if s.isEmpty then m.erase "namespace" else m.insert "namespace" (.str s)
  | .annotations t, m => m.insert "annotations" (.ofTexts t)

namespace Setter

variable {s : Setter} {m : Table Json}

theorem get?_edit_of_ne {key : String} (hkey : key ≠ s.key) :
    (s.edit m).get? key = m.get? key := by
  cases s with
  | name | annotations => exact Table.get?_insert_of_ne hkey _ m
  | namespaceName namespaceName =>
    rw [edit]
    split
    · exact Table.get?_erase_of_ne hkey m
    · exact Table.get?_insert_of_ne hkey _ m

theorem ascending_edit (hm : m.Ascending) : (s.edit m).Ascending := by
  cases s with
  | name | annotations => exact Table.ascending_insert hm
  | namespaceName namespaceName =>
    rw [edit]
    split
    · exact Table.ascending_erase hm
    · exact Table.ascending_insert hm

end Setter

namespace FreeObject

variable {f : FreeObject} {s : Setter}

theorem set_eq_modifyMetadata (f : FreeObject) (s : Setter) :
    f.set s = f.modifyMetadata s.edit := by
  cases s with
  | name | namespaceName | annotations => rfl

theorem metadata?_set (f : FreeObject) (s : Setter) (key : String) :
    (f.set s).metadata? key = (s.edit f.metadataFields).get? key := by
  rw [metadata?_eq, set_eq_modifyMetadata, metadataFields_modifyMetadata]

theorem metadata?_set_of_ne {key : String} (hkey : key ≠ s.key) :
    (f.set s).metadata? key = f.metadata? key := by
  rw [metadata?_set, Setter.get?_edit_of_ne hkey, metadata?_eq]

theorem metadataText_set_of_ne {key : String} (hkey : key ≠ s.key) :
    (f.set s).metadataText key = f.metadataText key := by
  unfold metadataText
  rw [metadata?_set_of_ne hkey]

theorem annotations_set_of_ne (hkey : "annotations" ≠ s.key) :
    (f.set s).annotations = f.annotations := by
  unfold annotations
  rw [metadata?_set_of_ne hkey]

theorem name_set (f : FreeObject) (name : String) : (f.set (.name name)).name = name := by
  have hget : (f.set (.name name)).metadata? "name" = some (.str name) :=
    (metadata?_set f _ _).trans (Table.get?_insert_self _ _ _)
  rw [FreeObject.name, metadataText, hget]
  rfl

/-- An empty namespace is taken out, and then counts as empty. -/
theorem namespaceName_set (hf : f.Sound) (namespaceName : String) :
    (f.set (.namespaceName namespaceName)).namespaceName = namespaceName := by
  rw [FreeObject.namespaceName, metadataText, metadata?_set, Setter.edit]
  by_cases hempty : namespaceName.isEmpty = true
  · rw [if_pos hempty, Table.get?_erase_self hf.metadataFields.nodup]
    exact (String.isEmpty_iff.mp hempty).symm
  · rw [if_neg hempty, Table.get?_insert_self]
    rfl

theorem annotations_set (f : FreeObject) (annotations : Table String) :
    (f.set (.annotations annotations)).annotations = annotations :=
  annotations_of_texts? ((metadata?_set f _ _).trans (Table.get?_insert_self _ _ _))
    (Json.texts?_ofTexts annotations)

theorem get?_metadata_set (f : FreeObject) (s : Setter) :
    (f.set s).fields.get? "metadata" = some (.obj (s.edit f.metadataFields)) := by
  rw [set_eq_modifyMetadata, fields_modifyMetadata, Table.get?_insert_self]

theorem Sound.set (h : f.Sound) (s : Setter) : (f.set s).Sound := by
  refine ⟨?_, fun v hv => ?_⟩
  · rw [set_eq_modifyMetadata, fields_modifyMetadata]
    exact Table.ascending_insert h.fields
  · rw [get?_metadata_set] at hv
    exact ⟨_, (Option.some.inj hv).symm, Setter.ascending_edit h.metadataFields⟩

theorem SameElsewhere.refl (f : FreeObject) : f.SameElsewhere f :=
  ⟨fun _ _ => rfl, fun _ _ _ _ => rfl⟩

theorem SameElsewhere.trans {f' f'' : FreeObject} (h : f.SameElsewhere f')
    (h' : f'.SameElsewhere f'') : f.SameElsewhere f'' :=
  ⟨fun key hkey => (h'.fields key hkey).trans (h.fields key hkey),
    fun key hname hnamespace hannotations =>
      (h'.metadata key hname hnamespace hannotations).trans
        (h.metadata key hname hnamespace hannotations)⟩

/-- A setter changes nothing outside the three keys of the metadata. -/
theorem sameElsewhere_set (f : FreeObject) (s : Setter) : f.SameElsewhere (f.set s) := by
  constructor
  · intro key hkey
    rw [set_eq_modifyMetadata, fields_modifyMetadata, Table.get?_insert_of_ne hkey]
  · intro key hname hnamespace hannotations
    have hother : key ≠ s.key := by
      cases s with
      | name => exact hname
      | namespaceName => exact hnamespace
      | annotations => exact hannotations
    exact metadata?_set_of_ne hother

theorem topText_set {key : String} (hkey : key ≠ "metadata") :
    (f.set s).topText key = f.topText key := by
  unfold topText
  rw [(f.sameElsewhere_set s).fields key hkey]

end FreeObject

/-! ## Agreement -/

namespace Outline

variable {o : Outline} {f : FreeObject}

/-- **One setter in both forms**: they give the same answers again. -/
theorem Describes.set (h : o.Describes f) (hf : f.Sound) (s : Setter) :
    (o.set s).Describes (f.set s) := by
  have hapiVersion : (f.set s).apiVersion = o.apiVersion :=
    (FreeObject.topText_set (by decide)).trans h.apiVersion
  have hkind : (f.set s).kind = o.kind := (FreeObject.topText_set (by decide)).trans h.kind
  have hname (hkey : "name" ≠ s.key) : (f.set s).name = o.name :=
    (FreeObject.metadataText_set_of_ne hkey).trans h.name
  have hnamespace (hkey : "namespace" ≠ s.key) : (f.set s).namespaceName = o.namespaceName :=
    (FreeObject.metadataText_set_of_ne hkey).trans h.namespaceName
  have hannotations (hkey : "annotations" ≠ s.key) : (f.set s).annotations = o.annotations :=
    (FreeObject.annotations_set_of_ne hkey).trans h.annotations
  have hne : "namespace" ≠ "name" := by decide
  have hne' : "annotations" ≠ "name" := by decide
  have hne'' : "annotations" ≠ "namespace" := by decide
  cases s with
  | name name =>
    exact ⟨hapiVersion, hkind, f.name_set name, hnamespace hne, hannotations hne'⟩
  | namespaceName namespaceName =>
    exact ⟨hapiVersion, hkind, hname hne.symm, FreeObject.namespaceName_set hf namespaceName,
      hannotations hne''⟩
  | annotations annotations =>
    exact ⟨hapiVersion, hkind, hname hne'.symm, hnamespace hne''.symm,
      f.annotations_set annotations⟩

/-! ### After reading -/

/-- A column of an object is missing, or it is read. -/
theorem read_of_defaulted {α : Type} {m : Table Json} {column : Nat} {key : String}
    {read : Json → Option α} {missing a : α}
    (h : (Row.named m).defaulted column key read missing = some a) :
    m.get? key = none ∧ missing = a ∨ ∃ v, m.get? key = some v ∧ read v = some a := by
  have hcell : (Row.named m).cell? column key = m.get? key := rfl
  unfold Row.defaulted at h
  rw [hcell] at h
  cases hget : m.get? key with
  | none =>
    rw [hget] at h
    exact .inl ⟨rfl, Option.some.inj h⟩
  | some v =>
    rw [hget] at h
    exact .inr ⟨v, rfl, h⟩

theorem text_of_defaulted {m : Table Json} {column : Nat} {key text : String}
    (h : (Row.named m).defaulted column key Json.str? "" = some text) :
    ((m.get? key).bind Json.str?).getD "" = text := by
  rcases read_of_defaulted h with ⟨hget, rfl⟩ | ⟨v, hget, hread⟩
  · rw [hget]
    rfl
  · rw [hget, Option.bind_some, hread]
    rfl

theorem annotations_of_defaulted {column : Nat} {t : Table String}
    (h : (Row.named f.metadataFields).defaulted column "annotations" Json.texts? [] = some t) :
    f.annotations = t := by
  rcases read_of_defaulted h with ⟨hget, rfl⟩ | ⟨v, hget, hread⟩
  · unfold FreeObject.annotations
    rw [FreeObject.metadata?_eq, hget]
    rfl
  · exact FreeObject.annotations_of_texts? ((f.metadata?_eq _).trans hget) hread

/-- Missing metadata are read as empty ones are. -/
theorem metadata?_of_defaulted {column : Nat} {a : String × String × Table String} (hf : f.Sound)
    (h : (Row.named f.fields).defaulted column "metadata" metadata? ("", "", []) = some a) :
    metadata? (.obj f.metadataFields) = some a := by
  unfold FreeObject.metadataFields
  rcases read_of_defaulted h with ⟨hget, rfl⟩ | ⟨v, hget, hread⟩
  · rw [hget]
    rfl
  · obtain ⟨m, rfl, -⟩ := hf.metadata v hget
    rw [hget]
    exact hread

/-- **What was just read**: the outline gives the answers of the object. -/
theorem describes_of_ofJson? (hf : f.Sound) (h : ofJson? f.toJson = some o) : o.Describes f := by
  obtain ⟨apiVersion, hapiVersion, h⟩ := Option.bind_eq_some_iff.mp h
  obtain ⟨kind, hkind, h⟩ := Option.bind_eq_some_iff.mp h
  obtain ⟨⟨name, namespaceName, annotations⟩, hmetadata, h⟩ := Option.bind_eq_some_iff.mp h
  have hm := metadata?_of_defaulted hf hmetadata
  obtain ⟨name', hname, hm⟩ := Option.bind_eq_some_iff.mp hm
  obtain ⟨namespaceName', hnamespace, hm⟩ := Option.bind_eq_some_iff.mp hm
  obtain ⟨annotations', hannotations, hm⟩ := Option.bind_eq_some_iff.mp hm
  obtain rfl := Option.some.inj h
  obtain ⟨rfl, rfl, rfl⟩ : name' = name ∧ namespaceName' = namespaceName ∧
      annotations' = annotations := by
    simpa using hm
  have hanswer {key text : String}
      (hread : ((f.metadataFields.get? key).bind Json.str?).getD "" = text) :
      f.metadataText key = text := by
    rwa [FreeObject.metadataText, FreeObject.metadata?_eq]
  exact ⟨text_of_defaulted hapiVersion, text_of_defaulted hkind,
    hanswer (text_of_defaulted hname), hanswer (text_of_defaulted hnamespace),
    annotations_of_defaulted hannotations⟩

/-! ### After setters -/

theorem Describes.foldl_set (h : o.Describes f) (hf : f.Sound) (setters : List Setter) :
    (setters.foldl Outline.set o).Describes (setters.foldl FreeObject.set f) ∧
      (setters.foldl FreeObject.set f).Sound ∧
      f.SameElsewhere (setters.foldl FreeObject.set f) := by
  induction setters generalizing o f with
  | nil => exact ⟨h, hf, .refl f⟩
  | cons s setters ih =>
    obtain ⟨hanswers, hsound, hsame⟩ := ih (h.set hf s) (hf.set s)
    exact ⟨hanswers, hsound, (f.sameElsewhere_set s).trans hsame⟩

/-- **Both forms follow one another.** An object that is read as an outline is read in its free form,
and after any setters both give the same answers. The tree of the free form is the one that was
read, but for the name, the namespace and the annotations of its metadata, which are an object as
soon as anything was set. -/
theorem describes_foldl_set (hf : f.Sound) (h : ofJson? f.toJson = some o) :
    FreeObject.ofJson? f.toJson = some f ∧
      ∀ setters : List Setter,
        (setters.foldl Outline.set o).Describes (setters.foldl FreeObject.set f) ∧
          f.SameElsewhere (setters.foldl FreeObject.set f) ∧
          (setters.foldl FreeObject.set f).Sound ∧
          (setters ≠ [] →
            ∃ m, (setters.foldl FreeObject.set f).fields.get? "metadata" = some (.obj m)) := by
  refine ⟨rfl, fun setters => ?_⟩
  obtain ⟨hanswers, hsound, hsame⟩ := (describes_of_ofJson? hf h).foldl_set hf setters
  refine ⟨hanswers, hsame, hsound, fun hne => ?_⟩
  rw [← List.dropLast_append_getLast hne, List.foldl_append]
  exact ⟨_, FreeObject.get?_metadata_set _ _⟩

/-- A pod with labels and a namespace, and without a name. -/
def pod : FreeObject :=
  ⟨[("apiVersion", .str "v1"), ("kind", .str "Pod"),
    ("metadata", .obj [("labels", .obj [("app", .str "web")]), ("namespace", .str "shop")]),
    ("spec", .null)]⟩

def podSetters : List Setter :=
  [.namespaceName "", .annotations [("team", "web")], .name "front"]

theorem describes_foldl_set_pod :
    pod.Sound ∧ ofJson? pod.toJson = some ⟨"v1", "Pod", "", "shop", []⟩ ∧
      FreeObject.ofJson? pod.toJson = some pod ∧
      (⟨"v1", "Pod", "front", "", [("team", "web")]⟩ : Outline).Describes
        (podSetters.foldl FreeObject.set pod) ∧
      pod.SameElsewhere (podSetters.foldl FreeObject.set pod) := by
  have hsound : pod.Sound := by
    refine ⟨by decide, fun v hv => ?_⟩
    obtain rfl := Option.some.inj hv
    exact ⟨_, rfl, by decide⟩
  obtain ⟨hread, hsetters⟩ := @describes_foldl_set ⟨"v1", "Pod", "", "shop", []⟩ pod hsound rfl
  exact ⟨hsound, rfl, hread, (hsetters podSetters).1, (hsetters podSetters).2.1⟩

/-- Metadata that are written as a list of columns are read into the outline alone. -/
example :
    let listed : Table Json := [("metadata", .arr [.str "front"])]
    ofJson? (.obj listed) = some ⟨"", "", "front", "", []⟩ ∧ FreeObject.name ⟨listed⟩ = "" :=
  ⟨rfl, rfl⟩

end Outline

end Chartkeeper
