import Chartkeeper.Proofs.Text.Lookup
import Chartkeeper.Release.Values
/-!
# What a chart is told about its composition

The identity of a composition is filled in under one key of its spec, so far as the user has left
that key and the keys below it alone. What was filled in once is complete, so a second merge has
nothing to add, not even when it is made for another composition.

- `get?_fill`: what is found after filling in.
- `told`: what a chart is told of a composition, key by key; `lookup_identity` says that nothing else
  is filled in.
- `Merged`: values with all of that in them.
- `merged_of_spec`: which specs give such values, and what becomes of the others.
-/

namespace Chartkeeper.Values

variable {c : Composition} {resource : ApiResource} {platform : String}
  {fields globals : Table Json} {rows : List (String × Json)}

/-! ## Filling in -/

/-- **A row that is there wins**, and of those that are filled in under one key the first. -/
theorem get?_fill (key : String) (rows : List (String × Json)) (t : Table Json) :
    Table.get? key (fill rows t) = (Table.get? key t).or (rows.lookup key) := by
  induction rows generalizing t with
  | nil => simp [fill]
  | cons row rest ih =>
    obtain ⟨k, value⟩ := row
    show Table.get? key (fill rest (t.insertNew k value)) = _
    rw [ih, Table.get?_insertNew, Option.or_assoc]
    by_cases hkey : key = k
    · simp [hkey]
    · simp [hkey, List.lookup_cons, beq_eq_false_iff_ne.mpr hkey]

theorem fill_of_contains {t : Table Json} (h : ∀ row ∈ rows, t.contains row.1 = true) :
    fill rows t = t := by
  induction rows with
  | nil => rfl
  | cons row rest ih =>
    obtain ⟨hrow, hrest⟩ := List.forall_mem_cons.mp h
    show fill rest (t.insertNew row.1 row.2) = t
    rw [Table.insertNew, if_pos hrow, ih hrest]

theorem contains_fill {row : String × Json} (hrow : row ∈ rows) (t : Table Json) :
    (fill rows t).contains row.1 = true := by
  have hlookup : (rows.lookup row.1).isSome = true := by
    rw [List.lookup_isSome_iff]
    exact ⟨row, hrow, beq_self_eq_true _⟩
  unfold Table.contains
  rw [get?_fill, Option.isSome_or, hlookup, Bool.or_true]

theorem ascending_fill {t : Table Json} (h : t.Ascending) : (fill rows t).Ascending :=
  List.foldlRecOn rows _ h fun _ h _ _ => Table.ascending_insertNew h

/-- Every composition is identified under the same keys. -/
theorem keys_identity (c c' : Composition) (resource resource' : ApiResource)
    (platform platform' : String) :
    (identity c resource platform).map Prod.fst =
      (identity c' resource' platform').map Prod.fst :=
  rfl

/-- What is filled in for one composition leaves no place for another. -/
theorem fill_identity_fill (c c' : Composition) (resource resource' : ApiResource)
    (platform platform' : String) (t : Table Json) :
    fill (identity c' resource' platform') (fill (identity c resource platform) t) =
      fill (identity c resource platform) t := by
  refine fill_of_contains fun row hrow => ?_
  have hkey : row.1 ∈ (identity c resource platform).map Prod.fst := by
    rw [keys_identity c c' resource resource' platform platform']
    exact List.mem_map_of_mem hrow
  obtain ⟨row', hrow', heq⟩ := List.mem_map.mp hkey
  rw [← heq]
  exact contains_fill hrow' t

/-! ## Merging -/

/-- What a chart is told of its composition under a key, if anything. -/
def told (c : Composition) (resource : ApiResource) (platform : String) : String → Option Json
  | "compositionId" => some (.str c.uid)
  | "compositionName" => some (.str c.name)
  | "compositionNamespace" => some (.str c.namespaceName)
  | "compositionApiVersion" => some (.str c.apiVersion)
  | "compositionGroup" => some (.str c.apiKind.group)
  | "compositionResource" => some (.str resource.resource)
  | "compositionKind" => some (.str c.kind)
  | "krateoNamespace" => some (.str platform)
  | "gracefullyPaused" => some (.bool c.wantsPause)
  | _ => none

/-- What can be found under `global`: an object, or nothing, which counts as an empty one. -/
def Globals (fields globals : Table Json) : Prop :=
  Table.get? "global" fields = none ∧ globals = [] ∨
    Table.get? "global" fields = some (.obj globals)

/-- A spec in which the identity of a composition has a place: the fields of the spec, and those
that the user has set under `global`. Both may be missing. -/
def Given (spec : Json) (fields globals : Table Json) : Prop :=
  (spec = .null ∧ fields = [] ∨ spec = .obj fields) ∧ Globals fields globals

/-- Values with the identity of a composition in them. -/
structure Merged (c : Composition) (resource : ApiResource) (platform : String)
    (fields globals : Table Json) (v : Values) : Prop where
  /-- All else is as in the spec. -/
  elsewhere : ∀ key, key ≠ "global" → v.get? key = Table.get? key fields
  /-- Under `global` stands what the user has set, then what the chart is told, then nothing. -/
  global : ∃ merged : Table Json, v.get? "global" = some (.obj merged) ∧
    (globals.Ascending → merged.Ascending) ∧
    ∀ key, Table.get? key merged = (Table.get? key globals).or (told c resource platform key)
  ascending : fields.Ascending → v.fields.Ascending
  /-- There is nothing left to merge, for whichever composition. -/
  again : ∀ c' resource' platform', v.inject c' resource' platform' = (v, .ok ())

/-- The identity that is filled in is what a chart is told. -/
theorem lookup_identity (c : Composition) (resource : ApiResource) (platform key : String) :
    (identity c resource platform).lookup key = told c resource platform key := by
  unfold told
  split
  case h_10 _ hid hname hnamespace hversion hgroup hresource hkind hplatform hpaused =>
    -- No row stands under a key that is none of the nine.
    rw [List.lookup_eq_none_iff]
    simp only [identity, List.forall_mem_cons, bne_iff_ne]
    exact ⟨hid, hname, hnamespace, hversion, hgroup, hresource, hkind, hplatform, hpaused, nofun⟩
  all_goals rfl

theorem getD_eq_obj_iff :
    (Table.get? globalKey fields).getD (.obj []) = .obj globals ↔ Globals fields globals := by
  unfold Globals globalKey
  cases Table.get? "global" fields with
  | none => simp [eq_comm]
  | some v => simp

theorem ofSpec_of_given (h : Given c.spec fields globals) : ofSpec c = .ok ⟨fields⟩ := by
  unfold ofSpec
  rcases h.1 with ⟨hnull, rfl⟩ | hobj
  · rw [hnull]
  · rw [hobj]

/-- The values after a merge. -/
def merge (c : Composition) (resource : ApiResource) (platform : String)
    (fields globals : Table Json) : Values :=
  ⟨fields.insert globalKey (.obj (fill (identity c resource platform) globals))⟩

theorem inject_of_globals (h : Globals fields globals) :
    (Values.mk fields).inject c resource platform =
      (merge c resource platform fields globals, .ok ()) := by
  unfold inject
  dsimp only
  rw [getD_eq_obj_iff.mpr h]
  rfl

theorem inject_of_not_globals (h : ¬∃ globals, Globals fields globals) :
    ∃ reason, (Values.mk fields).inject c resource platform =
      (⟨fields⟩, .error (.invalidRecord reason)) := by
  unfold inject
  dsimp only
  split
  case h_1 globals hobj => exact absurd ⟨globals, getD_eq_obj_iff.mp hobj⟩ h
  case h_2 => exact ⟨_, rfl⟩

theorem merged_merge :
    Merged c resource platform fields globals (merge c resource platform fields globals) where
  elsewhere := fun _ hkey => Table.get?_insert_of_ne hkey _ _
  global := by
    refine ⟨fill (identity c resource platform) globals, Table.get?_insert_self _ _ _,
      ascending_fill, fun key => ?_⟩
    rw [get?_fill, lookup_identity]
  ascending := Table.ascending_insert
  again := by
    intro c' resource' platform'
    have hglobals : Globals (merge c resource platform fields globals).fields
        (fill (identity c resource platform) globals) :=
      Or.inr (Table.get?_insert_self _ _ _)
    rw [inject_of_globals hglobals]
    unfold merge
    rw [fill_identity_fill, Table.insert_insert_self]

/-- A spec without such a place is refused as a whole, or else keeps its values as they are. -/
theorem refused_of_not_given (h : ¬∃ fields globals, Given c.spec fields globals) :
    (∃ reason, ofSpec c = .error (.invalidRecord reason)) ∨
      ∃ v reason, ofSpec c = .ok v ∧
        v.inject c resource platform = (v, .error (.invalidRecord reason)) := by
  have hglobals {fields : Table Json} (hfields : c.spec = .null ∧ fields = [] ∨
      c.spec = .obj fields) : ¬∃ globals, Globals fields globals :=
    fun ⟨globals, hobj⟩ => h ⟨fields, globals, hfields, hobj⟩
  unfold ofSpec
  cases hspec : c.spec with
  | null =>
    obtain ⟨reason, hinject⟩ := inject_of_not_globals (hglobals (Or.inl ⟨hspec, rfl⟩))
    exact Or.inr ⟨_, reason, rfl, hinject⟩
  | obj fields =>
    obtain ⟨reason, hinject⟩ := inject_of_not_globals (hglobals (Or.inr hspec))
    exact Or.inr ⟨_, reason, rfl, hinject⟩
  | bool | int | float | str | arr => exact Or.inl ⟨_, rfl⟩

/-- **The identity of a composition is merged into its spec** exactly if the spec is nothing or an
object, and what the user has under `global` is nothing or an object. Whatever the user has set
stays, and a second merge adds nothing. -/
theorem merged_of_spec (c : Composition) (resource : ApiResource) (platform : String) :
    (∀ fields globals, Given c.spec fields globals →
      ∃ v merged, ofSpec c = .ok v ∧ v.inject c resource platform = (merged, .ok ()) ∧
        Merged c resource platform fields globals merged) ∧
    ((¬∃ fields globals, Given c.spec fields globals) →
      (∃ reason, ofSpec c = .error (.invalidRecord reason)) ∨
        ∃ v reason, ofSpec c = .ok v ∧
          v.inject c resource platform = (v, .error (.invalidRecord reason))) := by
  refine ⟨fun fields globals h => ?_, refused_of_not_given⟩
  exact ⟨⟨fields⟩, merge c resource platform fields globals, ofSpec_of_given h,
    inject_of_globals h.2, merged_merge⟩

/-- A record with a spec of its own, and how records of its kind are served. -/
def shop (spec : Json) : Composition :=
  (Composition.of "composition/v1" "Web" "shop" "apps").withSpec spec

def webs : ApiResource := ⟨"composition", "v1", "webs"⟩

/-- A spec in which the user has set one of the keys of the identity, and one of his own. -/
def overlapping : Table Json :=
  [("global", .obj [("compositionName", .str "custom"), ("zones", .arr [.null])]),
    ("replicas", .int 2)]

theorem merged_of_spec_overlapping :
    (∃ v merged g, ofSpec (shop (.obj overlapping)) = .ok v ∧
      v.inject (shop (.obj overlapping)) webs "platform" = (merged, .ok ()) ∧
      merged.get? "replicas" = some (.int 2) ∧ merged.get? "global" = some (.obj g) ∧
      Table.get? "compositionName" g = some (.str "custom") ∧
      Table.get? "zones" g = some (.arr [.null]) ∧
      Table.get? "compositionGroup" g = some (.str "composition") ∧
      Table.get? "gracefullyPaused" g = some (.bool false)) ∧
    ∃ v reason, ofSpec (shop (.obj [("global", .null)])) = .ok v ∧
      v.inject (shop (.obj [("global", .null)])) webs "platform" =
        (v, .error (.invalidRecord reason)) := by
  constructor
  · have hgiven : Given (shop (.obj overlapping)).spec overlapping
        [("compositionName", .str "custom"), ("zones", .arr [.null])] :=
      ⟨Or.inr rfl, Or.inr rfl⟩
    obtain ⟨v, merged, hspec, hinject, hmerged⟩ :=
      (merged_of_spec (shop (.obj overlapping)) webs "platform").1 _ _ hgiven
    obtain ⟨g, hglobal, -, hget⟩ := hmerged.global
    have hgroup : (shop (.obj overlapping)).apiKind.group = "composition" := by decide +kernel
    have hpaused : (shop (.obj overlapping)).wantsPause = false := by decide +kernel
    refine ⟨v, merged, g, hspec, hinject, ?_, hglobal, ?_, ?_, ?_, ?_⟩
    · exact hmerged.elsewhere "replicas" (by decide)
    · exact hget "compositionName"
    · exact hget "zones"
    · rw [hget, ← hgroup]
      rfl
    · rw [hget, ← hpaused]
      rfl
  · have hnone : ¬∃ fields globals, Given (shop (.obj [("global", .null)])).spec fields globals := by
      rintro ⟨fields, globals, ⟨hnull, -⟩ | hobj, hglobals⟩
      · exact nomatch hnull
      · obtain rfl := Json.obj.inj hobj
        rcases hglobals with ⟨hmissing, -⟩ | hset
        · exact nomatch hmissing
        · exact nomatch hset
    rcases (merged_of_spec _ webs "platform").2 hnone with ⟨reason, hrefused⟩ | hkept
    · exact nomatch hrefused
    · exact hkept

end Chartkeeper.Values
