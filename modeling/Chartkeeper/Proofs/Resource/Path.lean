import Mathlib.Data.List.Chain
import Mathlib.Data.List.Forall2
import Chartkeeper.Proofs.Fault
import Chartkeeper.Proofs.Text.Cut
import Chartkeeper.Resource.Managed
/-!
# Where managed resources are found

A path is a row of segments with a slash before each: those of the API, then perhaps a namespace
segment, then the resource and the name. Whether there is a namespace segment is decided by the
text of the namespace, which is dropped for the kinds that are cluster-wide. So the path of an
object of a namespaced kind has a namespace segment exactly if its manifest names the namespace:
nothing fills in the one that the release lives in.

The segments can be told apart again as long as none of them has a slash of its own. The core
group and the namespace segment are then seen in the first segment and in the number of segments,
so a resource or a namespace may well be called `namespaces`.

- `toList_path`: the segments of a path.
- `path_eq_iff`: a path belongs to one object only.
- `located_of_ofOutlines`: what is in the list of managed resources, entry by entry.
- `path_of_unplaced`: a namespaced object without a namespace in its path.
-/

namespace Chartkeeper

/-! ## Segments -/

/-- The text of segments with a slash before each. -/
def slashed (segments : List String) : List Char :=
  segments.flatMap fun s => '/' :: s.toList

@[simp] theorem slashed_nil : slashed [] = [] := rfl

@[simp] theorem slashed_cons (s : String) (segments : List String) :
    slashed (s :: segments) = '/' :: (s.toList ++ slashed segments) := rfl

@[simp] theorem slashed_append (front back : List String) :
    slashed (front ++ back) = slashed front ++ slashed back :=
  List.flatMap_append

/-- Segments without an empty one among them, and without a slash in any. -/
def PlainSegments (segments : List String) : Prop :=
  ∀ s ∈ segments, s ≠ "" ∧ '/' ∉ s.toList

theorem PlainSegments.cons {s : String} {segments : List String} (hne : s ≠ "")
    (hs : '/' ∉ s.toList) (h : PlainSegments segments) : PlainSegments (s :: segments) :=
  List.forall_mem_cons.mpr ⟨⟨hne, hs⟩, h⟩

/-- In the text of plain segments no slash follows another. -/
theorem PlainSegments.isChain {segments : List String} (h : PlainSegments segments) :
    (slashed segments).IsChain fun c d => ¬(c = '/' ∧ d = '/') := by
  induction segments with
  | nil => exact List.isChain_nil
  | cons s rest ih =>
    obtain ⟨⟨hne, hs⟩, hrest⟩ := List.forall_mem_cons.mp h
    rw [slashed_cons, List.isChain_cons, List.isChain_append]
    -- A slash is followed by the segment, which does not start with one, and the segment by the
    -- slash before the next, or by nothing.
    refine ⟨?_, ?_, ih hrest, ?_⟩
    · rintro d hd ⟨-, rfl⟩
      rw [List.head?_append_of_ne_nil _ (by simpa using hne)] at hd
      exact hs (List.mem_of_head? hd)
    · refine List.Pairwise.isChain (List.pairwise_of_forall_mem_list ?_)
      rintro c hc d - ⟨rfl, -⟩
      exact hs hc
    · rintro c hc d - ⟨rfl, -⟩
      exact hs (List.mem_of_getLast? hc)

/-- Segments without slashes are what their text is cut into. -/
theorem pieces_append_slashed {front : List Char} (hfront : '/' ∉ front) {segments : List String}
    (h : ∀ s ∈ segments, '/' ∉ s.toList) :
    Text.pieces '/' (front ++ slashed segments) = front :: segments.map String.toList := by
  induction segments generalizing front with
  | nil => simpa using Text.pieces_of_not_mem hfront
  | cons s rest ih =>
    obtain ⟨hs, hrest⟩ := List.forall_mem_cons.mp h
    rw [slashed_cons, Text.pieces_append hfront, ih hs hrest, List.map_cons]

theorem PlainSegments.not_doubled {segments : List String} (h : PlainSegments segments) :
    ¬['/', '/'] <:+: slashed segments := by
  intro hdouble
  have hpair := List.IsChain.infix h.isChain hdouble
  rw [List.isChain_pair] at hpair
  exact hpair ⟨rfl, rfl⟩

namespace ApiResource

variable {r : ApiResource}

/-- The segments before those of the object: the core group has none of its own. -/
def api (r : ApiResource) : List String :=
  if r.group.isEmpty then ["api", r.version] else ["apis", r.group, r.version]

/-- The segments of the path of an object. -/
def segments (r : ApiResource) (namespaceName name : String) : List String :=
  r.api ++ (if namespaceName = "" then [] else ["namespaces", namespaceName]) ++ [r.resource, name]

/-- **The segments of a path.** -/
theorem toList_path (r : ApiResource) (namespaceName name : String) :
    (r.path namespaceName name).toList = slashed (r.segments namespaceName name) := by
  unfold path segments api
  by_cases hspace : namespaceName = "" <;> by_cases hgroup : r.group = "" <;>
    simp [hspace, hgroup]

/-! ## What a path says of its object -/

/-- The resource, the namespace and the name of the object that segments lead to. -/
def ofSegments? : List String → Option (ApiResource × String × String)
  | ["api", version, resource, name] => some (⟨"", version, resource⟩, "", name)
  | ["api", version, "namespaces", namespaceName, resource, name] =>
    some (⟨"", version, resource⟩, namespaceName, name)
  | ["apis", group, version, resource, name] => some (⟨group, version, resource⟩, "", name)
  | ["apis", group, version, "namespaces", namespaceName, resource, name] =>
    some (⟨group, version, resource⟩, namespaceName, name)
  | _ => none

/-- The object that a path leads to. -/
def ofPath? (path : String) : Option (ApiResource × String × String) :=
  match Text.pieces '/' path.toList with
  | [] :: segments => ofSegments? (segments.map String.ofList)
  | _ => none

/-- Coordinates without a slash of their own, whether or not they are empty. -/
def Slashless (r : ApiResource) (namespaceName name : String) : Prop :=
  ∀ part ∈ [r.group, r.version, r.resource, namespaceName, name], '/' ∉ part.toList

instance (r : ApiResource) (namespaceName name : String) :
    Decidable (r.Slashless namespaceName name) :=
  inferInstanceAs (Decidable (∀ _ ∈ _, _))

/-- Each of the four forms is told from the others: those of the core group by the first segment,
those with a namespace by the number of segments. -/
theorem ofSegments?_segments (r : ApiResource) (namespaceName name : String) :
    ofSegments? (r.segments namespaceName name) = some (r, namespaceName, name) := by
  obtain ⟨group, version, resource⟩ := r
  unfold segments api
  by_cases hspace : namespaceName = "" <;> by_cases hgroup : group = "" <;>
    simp [ofSegments?, hspace, hgroup]

theorem mem_segments {namespaceName name s : String} (h : s ∈ r.segments namespaceName name) :
    s ∈ ["api", "apis", "namespaces"] ∨
      s ∈ [r.group, r.version, r.resource, namespaceName, name] := by
  unfold segments api at h
  simp only [List.mem_append, List.mem_cons, List.not_mem_nil, or_false] at h ⊢
  split at h <;> split at h <;> simp at h <;> tauto

theorem Slashless.segments {namespaceName name : String} (h : r.Slashless namespaceName name) :
    ∀ s ∈ r.segments namespaceName name, '/' ∉ s.toList := by
  have hwords : ∀ s ∈ ["api", "apis", "namespaces"], '/' ∉ s.toList := by decide
  intro s hs
  rcases mem_segments hs with hword | hpart
  · exact hwords s hword
  · exact h s hpart

/-- **A path leads back to its object.** -/
theorem ofPath?_path {namespaceName name : String} (h : r.Slashless namespaceName name) :
    ofPath? (r.path namespaceName name) = some (r, namespaceName, name) := by
  have hcut : Text.pieces '/' (r.path namespaceName name).toList =
      [] :: (r.segments namespaceName name).map String.toList := by
    rw [toList_path]
    exact pieces_append_slashed List.not_mem_nil h.segments
  unfold ofPath?
  rw [hcut]
  dsimp only
  rw [List.map_map, ← ofSegments?_segments]
  congr 1
  simp

variable {r' : ApiResource} {namespaceName namespaceName' name name' : String}

/-- **A path belongs to one object only**, also where resources or namespaces are called
`namespaces`. -/
theorem path_eq_iff (h : r.Slashless namespaceName name) (h' : r'.Slashless namespaceName' name') :
    r.path namespaceName name = r'.path namespaceName' name' ↔
      (r.group = r'.group ∧ r.version = r'.version ∧ r.resource = r'.resource) ∧
        namespaceName = namespaceName' ∧ name = name' := by
  constructor
  · intro hpath
    have hread := ofPath?_path h
    rw [hpath, ofPath?_path h'] at hread
    obtain ⟨rfl, rfl, rfl⟩ : r' = r ∧ namespaceName' = namespaceName ∧ name' = name := by
      simpa using hread
    exact ⟨⟨rfl, rfl, rfl⟩, rfl, rfl⟩
  · obtain ⟨group, version, resource⟩ := r
    rintro ⟨⟨rfl, rfl, rfl⟩, rfl, rfl⟩
    rfl

/-- The namespace `shop`, and an object called `shop` whose group, resource and namespace are all
called `namespaces`. -/
theorem path_eq_iff_namespaces :
    (ApiResource.mk "" "v1" "namespaces").path "" "shop" ≠
      (ApiResource.mk "namespaces" "v1" "namespaces").path "namespaces" "shop" := by
  intro hpath
  have hparts := (path_eq_iff (by decide) (by decide)).mp hpath
  exact absurd hparts.1.1 (by decide)

/-- A resource whose coordinates can stand in a path, each as one segment. -/
structure Plain (r : ApiResource) : Prop where
  group : '/' ∉ r.group.toList
  version : r.version ≠ "" ∧ '/' ∉ r.version.toList
  resource : r.resource ≠ "" ∧ '/' ∉ r.resource.toList

theorem Plain.api (h : r.Plain) : PlainSegments r.api := by
  have hversion : PlainSegments [r.version] := by
    rintro s hs
    rw [List.mem_singleton.mp hs]
    exact h.version
  unfold ApiResource.api
  split
  · exact hversion.cons (by decide) (by decide)
  case isFalse hgroup =>
    refine (hversion.cons ?_ h.group).cons (by decide) (by decide)
    rintro hempty
    exact hgroup (by simp [hempty])

end ApiResource

/-! ## Entries -/

namespace Outline

/-- The kind that the mapper is asked about. -/
def apiKind (o : Outline) : ApiKind :=
  ApiKind.ofManifest o.apiVersion o.kind

end Outline

namespace ManagedResource

variable {mapper : Mapper} {r : ApiResource} {namespaced : Bool} {o : Outline}
  {m : ManagedResource}

/-- An entry whose path has a namespace segment, in its place between version and resource: the
path under which the API finds an object of that namespace. -/
def InNamespace (r : ApiResource) (m : ManagedResource) : Prop :=
  m.path.toList = slashed (r.api ++ ["namespaces", m.namespaceName] ++ [r.resource, m.name])

/-- An entry whose path goes from the version to the resource at once. -/
def ClusterWide (r : ApiResource) (m : ManagedResource) : Prop :=
  m.path.toList = slashed (r.api ++ [r.resource, m.name])

/-- The text of an entry's namespace segment, with the slashes around it. -/
def namespaceSegment (m : ManagedResource) : List Char :=
  "/namespaces/".toList ++ m.namespaceName.toList ++ ['/']

/-- What an entry says of an object of a kind that is served as `r`. -/
structure Located (r : ApiResource) (namespaced : Bool) (o : Outline) (m : ManagedResource) :
    Prop where
  apiVersion : m.apiVersion = o.apiVersion
  resource : m.resource = r.resource
  name : m.name = o.name
  namespaceName : m.namespaceName = if namespaced then o.namespaceName else ""
  /-- There is a namespace segment exactly for a namespaced kind with the namespace given. -/
  inNamespace : InNamespace r m ↔ namespaced = true ∧ o.namespaceName ≠ ""
  clusterWide : ClusterWide r m ↔ ¬(namespaced = true ∧ o.namespaceName ≠ "")
  /-- The same of the text of the path, unless a segment has slashes of its own. -/
  holds_segment : r.Plain → o.name ≠ "" → '/' ∉ o.name.toList →
    (m.namespaceSegment <:+: m.path.toList ↔ namespaced = true ∧ o.namespaceName ≠ "")

/-- A path with a namespace segment is longer than one without. -/
theorem InNamespace.not_clusterWide (h : InNamespace r m) : ¬ClusterWide r m := by
  intro hwide
  have hlength := congrArg List.length (h.symm.trans hwide)
  simp at hlength
  omega

theorem InNamespace.holds_segment (h : InNamespace r m) :
    m.namespaceSegment <:+: m.path.toList := by
  refine ⟨slashed r.api, r.resource.toList ++ slashed [m.name], ?_⟩
  rw [h]
  unfold namespaceSegment
  simp

theorem ClusterWide.not_holds_segment (h : ClusterWide r m) (hr : r.Plain) (hne : m.name ≠ "")
    (hname : '/' ∉ m.name.toList) (hspace : m.namespaceName = "") :
    ¬m.namespaceSegment <:+: m.path.toList := by
  have hsegments : PlainSegments (r.api ++ [r.resource, m.name]) := by
    intro s hs
    rcases List.mem_append.mp hs with hs | hs
    · exact hr.api s hs
    · rcases List.mem_pair.mp hs with rfl | rfl
      · exact hr.resource
      · exact ⟨hne, hname⟩
  intro hsegment
  refine hsegments.not_doubled ?_
  rw [← h]
  refine List.IsInfix.trans ⟨"/namespaces".toList, [], ?_⟩ hsegment
  unfold namespaceSegment
  simp [hspace]

/-- The entry of an object whose kind is served as `r`. -/
def entry (r : ApiResource) (namespaced : Bool) (o : Outline) : ManagedResource :=
  let namespaceName := if namespaced then o.namespaceName else ""
  ⟨o.apiVersion, r.resource, o.name, namespaceName, r.path namespaceName o.name⟩

theorem ofOutline_eq_ok : ofOutline mapper o = .ok m ↔
    ∃ r namespaced, mapper.resource o.apiKind = .ok r ∧
      mapper.isNamespaced o.apiKind = .ok namespaced ∧ entry r namespaced o = m := by
  unfold ofOutline
  simp only [Fault.bind_eq_ok, Fault.during_eq_ok, Fault.pure_eq_ok]
  constructor
  · rintro ⟨r, hr, namespaced, hspaced, rfl⟩
    exact ⟨r, namespaced, hr, hspaced, rfl⟩
  · rintro ⟨r, namespaced, hr, hspaced, rfl⟩
    exact ⟨r, hr, namespaced, hspaced, rfl⟩

/-- The two questions, whether the kind is namespaced and whether the manifest names a namespace,
come down to what is left of the namespace. -/
theorem namespaceName_entry_eq_empty :
    (entry r namespaced o).namespaceName = "" ↔ ¬(namespaced = true ∧ o.namespaceName ≠ "") := by
  unfold entry
  cases namespaced <;> simp

theorem entry_cases :
    (InNamespace r (entry r namespaced o) ∧ namespaced = true ∧ o.namespaceName ≠ "") ∨
      (ClusterWide r (entry r namespaced o) ∧ (entry r namespaced o).namespaceName = "" ∧
        ¬(namespaced = true ∧ o.namespaceName ≠ "")) := by
  have hpath := r.toList_path (entry r namespaced o).namespaceName o.name
  unfold ApiResource.segments at hpath
  by_cases hspace : (entry r namespaced o).namespaceName = ""
  · rw [if_pos hspace, List.append_nil] at hpath
    exact Or.inr ⟨hpath, hspace, namespaceName_entry_eq_empty.mp hspace⟩
  · rw [if_neg hspace] at hpath
    exact Or.inl ⟨hpath, not_not.mp (mt namespaceName_entry_eq_empty.mpr hspace)⟩

theorem located_entry : Located r namespaced o (entry r namespaced o) where
  apiVersion := rfl
  resource := rfl
  name := rfl
  namespaceName := rfl
  inNamespace := by
    rcases entry_cases with ⟨hinside, hplaced⟩ | ⟨hwide, -, hnone⟩
    · exact iff_of_true hinside hplaced
    · exact iff_of_false (fun hinside => hinside.not_clusterWide hwide) hnone
  clusterWide := by
    rcases entry_cases with ⟨hinside, hplaced⟩ | ⟨hwide, -, hnone⟩
    · exact iff_of_false hinside.not_clusterWide (not_not_intro hplaced)
    · exact iff_of_true hwide hnone
  holds_segment := by
    intro hr hne hname
    rcases entry_cases with ⟨hinside, hplaced⟩ | ⟨hwide, hspace, hnone⟩
    · exact iff_of_true hinside.holds_segment hplaced
    · exact iff_of_false (hwide.not_holds_segment hr hne hname hspace) hnone

/-- **Every entry has the path of its object.** Whatever the mapper knows and the manifest says,
a list that is resolved has an entry for each object, in order, and the path of an entry has a
namespace segment exactly if the kind is namespaced and the manifest names the namespace. -/
theorem located_of_ofOutlines {outlines : List Outline} {managed : List ManagedResource}
    (h : ofOutlines mapper outlines = .ok managed) :
    List.Forall₂ (fun o m => ∃ r namespaced, mapper.resource o.apiKind = .ok r ∧
      mapper.isNamespaced o.apiKind = .ok namespaced ∧ Located r namespaced o m)
      outlines managed := by
  induction outlines generalizing managed with
  | nil =>
    obtain rfl := Except.ok.inj h
    exact .nil
  | cons o rest ih =>
    unfold ofOutlines at h
    obtain ⟨m, hm, h⟩ := Fault.bind_eq_ok.mp h
    obtain ⟨ms, hms, h⟩ := Fault.bind_eq_ok.mp h
    obtain rfl := Fault.pure_eq_ok.mp h
    obtain ⟨r, namespaced, hr, hspaced, rfl⟩ := ofOutline_eq_ok.mp hm
    exact .cons ⟨r, namespaced, hr, hspaced, located_entry⟩ (ih hms)

/-- An object that the manifest puts into a namespace, one of a cluster-wide kind for which it
names a namespace all the same, and one for which it names none. -/
def mixedOutlines : List Outline :=
  [Outline.of "apps/v1" "Deployment" "web" "shop", Outline.of "v1" "Node" "worker" "shop",
    Outline.of "v1" "ConfigMap" "settings" ""]

theorem located_of_ofOutlines_mixed : ∃ deployment node settings,
    ofOutlines Catalog.standard.mapper mixedOutlines = .ok [deployment, node, settings] ∧
      InNamespace ⟨"apps", "v1", "deployments"⟩ deployment ∧ deployment.namespaceName = "shop" ∧
      ClusterWide ⟨"", "v1", "nodes"⟩ node ∧ node.namespaceName = "" ∧
      ClusterWide ⟨"", "v1", "configmaps"⟩ settings := by
  have hlist : ofOutlines Catalog.standard.mapper mixedOutlines =
      .ok [⟨"apps/v1", "deployments", "web", "shop",
          "/apis/apps/v1/namespaces/shop/deployments/web"⟩,
        ⟨"v1", "nodes", "worker", "", "/api/v1/nodes/worker"⟩,
        ⟨"v1", "configmaps", "settings", "", "/api/v1/configmaps/settings"⟩] := by
    decide +kernel
  cases located_of_ofOutlines hlist with
  | cons hdeployment hrest =>
  cases hrest with
  | cons hnode hrest =>
  cases hrest with
  | cons hsettings hrest =>
  obtain ⟨r, namespaced, hr, hspaced, hdeployment⟩ := hdeployment
  obtain ⟨r', namespaced', hr', hspaced', hnode⟩ := hnode
  obtain ⟨r'', namespaced'', hr'', hspaced'', hsettings⟩ := hsettings
  cases hr
  cases hspaced
  cases hr'
  cases hspaced'
  cases hr''
  cases hspaced''
  refine ⟨_, _, _, hlist, ?_, hdeployment.namespaceName, ?_, hnode.namespaceName, ?_⟩
  · exact hdeployment.inNamespace.mpr (by decide)
  · exact hnode.clusterWide.mpr (by decide)
  · exact hsettings.clusterWide.mpr (by decide)

/-- **A namespaced object without a namespace in its path**, because its manifest leaves the
namespace to the release. -/
theorem path_of_unplaced :
    Catalog.standard.mapper.isNamespaced ⟨"", "v1", "ConfigMap"⟩ = .ok true ∧
      ofOutlines Catalog.standard.mapper [Outline.of "v1" "ConfigMap" "settings" ""] =
        .ok [⟨"v1", "configmaps", "settings", "", "/api/v1/configmaps/settings"⟩] ∧
      ¬"/namespaces/".toList <:+: "/api/v1/configmaps/settings".toList := by
  decide +kernel

end ManagedResource

end Chartkeeper
