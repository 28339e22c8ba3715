import Mathlib.Data.List.Chain
import Chartkeeper.Proofs.Release.Backend
/-!
# Histories of releases

A package manager that starts empty and is used through its operations keeps every history in order,
however its charts and its failures are set up in between: the newest release is deployed and all
before it are superseded, they carry the name that they are kept under, and each revision comes
after the one before it. An upgrade or a rollback marks the releases that are there, puts one more
after them and drops the oldest beyond the limit. A rollback takes its release from further back,
with the status and the revision it had there, but gives it new ones.

- `Lineage`: a history in order; `Lineage.takeOver` is the step of an upgrade and of a rollback.
- `lawful_perform`: a request keeps all histories in order, and so does any number of them.
- `histories_of_reached`: with it, what each further request does.
-/

namespace Chartkeeper

/-! ## Histories in order -/

/-- The history of a release, oldest first, as the operations leave it. -/
structure Lineage (key : ReleaseKey) (releases : List Release) : Prop where
  nonempty : releases ≠ []
  keyed : ∀ r ∈ releases, r.key = key
  deployed : ∀ last ∈ releases.getLast?, last.status = .deployed
  superseded : ∀ r ∈ releases.dropLast, r.status = .superseded
  numbered : releases.IsChain fun r next => next.revision = Release.nextRevision r.revision

namespace Lineage

variable {key : ReleaseKey} {releases kept : List Release} {current next : Release} {limit : Nat}

theorem first (hkey : next.key = key) (hstatus : next.status = .deployed) : Lineage key [next] := by
  refine ⟨List.cons_ne_nil _ _, ?_, ?_, nofun, List.isChain_singleton _⟩
  · intro r hr
    rw [List.mem_singleton.mp hr]
    exact hkey
  · intro last hlast
    rw [← Option.some.inj hlast]
    exact hstatus

/-- One more release, after those before are marked as superseded. -/
theorem push (h : Lineage key releases) (hlast : releases.getLast? = some current)
    (hkey : next.key = key) (hstatus : next.status = .deployed)
    (hrevision : next.revision = Release.nextRevision current.revision) :
    Lineage key (releases.map (fun r => { r with status := .superseded }) ++ [next]) := by
  refine ⟨List.concat_ne_nil _ _, ?_, ?_, ?_, ?_⟩
  · intro r hr
    rcases List.mem_append.mp hr with hr | hr
    · obtain ⟨old, hold, rfl⟩ := List.mem_map.mp hr
      exact h.keyed old hold
    · rw [List.mem_singleton.mp hr]
      exact hkey
  · intro last hmem
    rw [List.getLast?_concat] at hmem
    rw [← Option.some.inj hmem]
    exact hstatus
  · intro r hr
    rw [List.dropLast_concat] at hr
    obtain ⟨old, -, rfl⟩ := List.mem_map.mp hr
    rfl
  · refine List.isChain_append.mpr ⟨(List.isChain_map _).mpr h.numbered, List.isChain_singleton _, ?_⟩
    intro r hr next' hnext'
    rw [List.getLast?_map, hlast] at hr
    rw [← Option.some.inj hr, ← Option.some.inj hnext']
    exact hrevision

/-- What is left of a history when some of its oldest releases are dropped. -/
theorem suffix (h : Lineage key releases) (hkept : kept <:+ releases) (hne : kept ≠ []) :
    Lineage key kept := by
  obtain ⟨dropped, rfl⟩ := hkept
  refine ⟨hne, fun r hr => h.keyed r (List.mem_append_right _ hr), ?_, ?_,
    h.numbered.suffix (List.suffix_append _ _)⟩
  · intro last hlast
    exact h.deployed last (by rwa [List.getLast?_append_of_ne_nil _ hne])
  · intro r hr
    refine h.superseded r ?_
    rw [List.dropLast_append_of_ne_nil hne]
    exact List.mem_append_right _ hr

/-- Up to the largest revision each one is one more than the one before. -/
theorem consecutive (h : Lineage key releases)
    (hsmall : ∀ r ∈ releases, r.revision < Release.lastRevision) :
    releases.IsChain fun r next => next.revision = r.revision + 1 := by
  refine h.numbered.imp_of_mem_imp fun r next _ hnext hfollows => ?_
  have hlt := hsmall next hnext
  rw [hfollows] at hlt ⊢
  unfold Release.nextRevision at hlt ⊢
  omega

end Lineage

namespace Backend

variable {b : Backend} {key : ReleaseKey} {releases : List Release} {current next : Release}
  {limit : Nat}

theorem trim_suffix (limit : Nat) (releases : List Release) : trim limit releases <:+ releases := by
  unfold trim
  split
  · exact List.suffix_rfl
  · exact List.drop_suffix _ _

theorem length_trim (limit : Nat) (releases : List Release) : (trim limit releases).length =
    if limit = 0 then releases.length else min limit releases.length := by
  unfold trim
  split
  · rfl
  · rw [List.length_drop]
    omega

/-- What is kept of a history after a release took over: the newest releases, as many as the limit
allows. A limit of zero allows any number. -/
structure Newest (limit : Nat) (before after : List Release) (next : Release) : Prop where
  suffix : after <:+ before.map (fun r => { r with status := .superseded }) ++ [next]
  length_eq : after.length = if limit = 0 then before.length + 1 else min limit (before.length + 1)

theorem newest_takeOver (limit : Nat) (releases : List Release) (next : Release) :
    Newest limit releases (takeOver limit releases next) next := by
  refine ⟨trim_suffix _ _, ?_⟩
  unfold takeOver
  rw [length_trim, List.length_append, List.length_map, List.length_singleton]

theorem lineage_takeOver (h : Lineage key releases) (hlast : releases.getLast? = some current)
    (hkey : next.key = key) (hstatus : next.status = .deployed)
    (hrevision : next.revision = Release.nextRevision current.revision) (limit : Nat) :
    Lineage key (takeOver limit releases next) := by
  refine (h.push hlast hkey hstatus hrevision).suffix (trim_suffix _ _) fun hempty => ?_
  have hnewest := getLast?_takeOver limit releases next
  rw [hempty] at hnewest
  exact nomatch hnewest

theorem mem_of_rollbackTarget? {target : Release} (h : rollbackTarget? releases = some target) :
    target ∈ releases := by
  rw [← List.mem_reverse]
  unfold rollbackTarget? at h
  split at h
  · rename_i hreverse
    rw [hreverse, ← Option.some.inj h]
    exact List.mem_cons_of_mem _ List.mem_cons_self
  · rename_i hreverse
    rw [hreverse, ← Option.some.inj h]
    exact List.mem_cons_self
  · exact nomatch h

/-! ## Requests -/

/-- An operation with what it is given. -/
inductive Request where
  | get (key : ReleaseKey)
  | install (key : ReleaseKey) (url : String) (action : Action)
  | upgrade (key : ReleaseKey) (url : String) (action : Action) (limit : Nat)
  | rollback (key : ReleaseKey) (limit : Nat)
  | uninstall (key : ReleaseKey) (ignoreMissing : Bool)

namespace Request

/-- The release that a request is about. -/
def release : Request → ReleaseKey
  | get key | install key .. | upgrade key .. | rollback key _ | uninstall key _ => key

/-- How many releases a request that adds one keeps. -/
def limit? : Request → Option Nat
  | upgrade _ _ _ limit | rollback _ limit => some limit
  | get _ | install .. | uninstall .. => none

end Request

/-- The answer to a request: a release, if it is about one. -/
def reply {α : Type} (f : α → Option Release) (r : Except Fault α × Backend) :
    Except Fault (Option Release) × Backend :=
  (r.1.map f, r.2)

def perform (b : Backend) : Request → Except Fault (Option Release) × Backend
  | .get key => reply id (b.get key)
  | .install key url action => reply some (b.install key url action)
  | .upgrade key url action limit => reply some (b.upgrade key url action limit)
  | .rollback key limit => reply some (b.rollback key limit)
  | .uninstall key ignoreMissing => reply (fun _ => none) (b.uninstall key ignoreMissing)

theorem Acts.reply {α : Type} {did : α → Assoc ReleaseKey (List Release) → Prop}
    {did' : Option Release → Assoc ReleaseKey (List Release) → Prop} {f : α → Option Release}
    {r : Except Fault α × Backend} (h : Acts b did r) (hdid : ∀ a t, did a t → did' (f a) t) :
    Acts b did' (reply f r) := by
  obtain ⟨result, b'⟩ := r
  cases result with
  | error fault => exact acts_error h.setup h.of_error
  | ok a => exact acts_ok h.setup (hdid a _ h.of_ok)

/-- What a request that succeeds does: nothing to other releases, and if it adds a release to a
history, then the newest stay. -/
structure Request.Done (request : Request) (b : Backend) (answer : Option Release)
    (t : Assoc ReleaseKey (List Release)) : Prop where
  others : ∀ other, other ≠ request.release → t.get? other = b.histories.get? other
  newest : ∀ limit ∈ request.limit?, ∃ next, answer = some next ∧
    Newest limit (b.history request.release) ((t.get? request.release).getD []) next

theorem done_takeOver (request : Request) (hlimit : request.limit? = some limit) (next : Release) :
    request.Done b (some next) (b.histories.insert request.release
      (takeOver limit (b.history request.release) next)) := by
  refine ⟨fun other hother => Assoc.get?_insert_of_ne hother _ _, fun limit' hlimit' => ?_⟩
  obtain rfl : limit = limit' := Option.some.inj (hlimit.symm.trans hlimit')
  rw [Assoc.get?_insert_self]
  exact ⟨next, rfl, newest_takeOver _ _ _⟩

theorem acts_perform (b : Backend) (request : Request) :
    Acts b (request.Done b) (b.perform request) := by
  cases request with
  | get key =>
      refine (acts_get b key).reply ?_
      rintro found _ ⟨-, rfl⟩
      exact ⟨fun _ _ => rfl, nofun⟩
  | install key url action =>
      refine (acts_install b key url action).reply ?_
      rintro release _ ⟨-, -, rfl⟩
      exact ⟨fun other hother => Assoc.get?_insert_of_ne hother _ _, nofun⟩
  | upgrade key url action limit =>
      refine (acts_upgrade b key url action limit).reply ?_
      rintro release _ ⟨_, _, -, -, -, rfl⟩
      exact done_takeOver (.upgrade key url action limit) rfl release
  | rollback key limit =>
      refine (acts_rollback b key limit).reply ?_
      rintro release _ ⟨_, _, -, -, -, rfl⟩
      exact done_takeOver (.rollback key limit) rfl release
  | uninstall key ignoreMissing =>
      refine (acts_uninstall b key ignoreMissing).reply ?_
      rintro _ _ (⟨-, rfl⟩ | ⟨-, -, rfl⟩)
      · exact ⟨fun _ _ => rfl, nofun⟩
      · exact ⟨fun other hother => Assoc.get?_erase_of_ne hother _, nofun⟩

/-! ## All histories -/

/-- Each release has one history, and that is in order. -/
structure Lawful (t : Assoc ReleaseKey (List Release)) : Prop where
  keys : (t.map Prod.fst).Nodup
  lineage : ∀ key releases, (key, releases) ∈ t → Lineage key releases

theorem Lawful.insert {t : Assoc ReleaseKey (List Release)} (h : Lawful t)
    (hreleases : Lineage key releases) : Lawful (t.insert key releases) := by
  refine ⟨Assoc.nodup_keys_insert h.keys, fun key' releases' hmem => ?_⟩
  rcases Assoc.eq_or_mem_of_mem_insert hmem with heq | hmem
  · obtain ⟨rfl, rfl⟩ := Prod.mk.inj heq
    exact hreleases
  · exact h.lineage key' releases' hmem

theorem Lawful.erase {t : Assoc ReleaseKey (List Release)} (h : Lawful t) :
    Lawful (t.erase key) :=
  ⟨Assoc.nodup_keys_erase h.keys, fun key' releases' hmem =>
    h.lineage key' releases' (Assoc.mem_of_mem_erase hmem)⟩

theorem Lawful.history (h : Lawful b.histories) (hcurrent : b.current? key = some current) :
    Lineage key (b.history key) := by
  unfold current? at hcurrent
  unfold Backend.history at hcurrent ⊢
  cases hthere : b.histories.get? key with
  | none =>
      rw [hthere] at hcurrent
      exact nomatch hcurrent
  | some releases => exact h.lineage key releases (Assoc.mem_of_get? hthere)

/-- A request keeps all histories in order. -/
theorem lawful_perform (h : Lawful b.histories) (request : Request) :
    Lawful (b.perform request).2.histories := by
  cases request with
  | get key =>
      refine (acts_get b key).holds h ?_
      rintro found _ ⟨-, rfl⟩
      exact h
  | install key url action =>
      refine (acts_install b key url action).holds h ?_
      rintro release _ ⟨hrender, -, rfl⟩
      obtain ⟨_, _, _, rfl⟩ := deployed_of_render hrender
      exact h.insert (Lineage.first rfl rfl)
  | upgrade key url action limit =>
      refine (acts_upgrade b key url action limit).holds h ?_
      rintro release _ ⟨rendered, current, hrender, hcurrent, hrelease, rfl⟩
      obtain ⟨_, _, _, rfl⟩ := deployed_of_render hrender
      subst hrelease
      exact h.insert (lineage_takeOver (h.history hcurrent) hcurrent rfl rfl rfl limit)
  | rollback key limit =>
      refine (acts_rollback b key limit).holds h ?_
      rintro release _ ⟨current, target, hcurrent, htarget, hrelease, rfl⟩
      have hbefore := h.history hcurrent
      -- The copy has the name of an earlier release, and so the right one.
      have hkey : release.key = key := by
        rw [hrelease]
        exact hbefore.keyed target (mem_of_rollbackTarget? htarget)
      exact h.insert (lineage_takeOver hbefore hcurrent hkey (by rw [hrelease]) (by rw [hrelease])
        limit)
  | uninstall key ignoreMissing =>
      refine (acts_uninstall b key ignoreMissing).holds h ?_
      rintro _ _ (⟨-, rfl⟩ | ⟨-, -, rfl⟩)
      · exact h
      · exact h.erase

/-- The package managers that come about from an empty one by requests. In between charts become
known, and operations are made to fail or to succeed again. -/
inductive Reached : Backend → Prop
  | empty (retains : Bool) : Reached { Backend.empty with retains }
  | register {b : Backend} (h : Reached b) (url : String) (chart : Chart) :
      Reached (b.register url chart)
  | failOn {b : Backend} (h : Reached b) (op : Operation) (reason : String) :
      Reached (b.failOn op reason)
  | clearFailures {b : Backend} (h : Reached b) : Reached b.clearFailures
  | perform {b : Backend} (h : Reached b) (request : Request) : Reached (b.perform request).2

theorem Reached.lawful (h : Reached b) : Lawful b.histories := by
  induction h with
  | empty retains => exact ⟨List.nodup_nil, nofun⟩
  | register _ url chart ih => exact ih
  | failOn _ op reason ih => exact ih
  | clearFailures _ ih => exact ih
  | perform _ request ih => exact lawful_perform ih request

/-- **The histories of a package manager.** Each release has one history, which is not empty, carries
the name it is kept under, has a deployed release at its end and superseded ones before it, and
consecutive revisions as long as none has reached the largest. A request that fails leaves all
histories; one that succeeds leaves all but that of its own release, and where it adds a release to
that, the newest stay, no more of them than the limit if there is one. -/
theorem histories_of_reached (h : Reached b) :
    (b.histories.map Prod.fst).Nodup ∧
    (∀ key releases, (key, releases) ∈ b.histories → Lineage key releases ∧
      ((∀ r ∈ releases, r.revision < Release.lastRevision) →
        releases.IsChain fun r next => next.revision = r.revision + 1)) ∧
    ∀ request : Request,
      (∀ fault, (b.perform request).1 = .error fault →
        (b.perform request).2.histories = b.histories) ∧
      ∀ answer, (b.perform request).1 = .ok answer →
        (∀ other, other ≠ request.release →
          (b.perform request).2.histories.get? other = b.histories.get? other) ∧
        ∀ limit ∈ request.limit?, ∃ next, answer = some next ∧
          Newest limit (b.history request.release) ((b.perform request).2.history request.release) next := by
  refine ⟨h.lawful.keys, fun key releases hmem => ?_, fun request => ?_⟩
  · have hlineage := h.lawful.lineage key releases hmem
    exact ⟨hlineage, hlineage.consecutive⟩
  · have hacts := acts_perform b request
    refine ⟨hacts.kept, fun answer hanswer => ?_⟩
    have hdone := hacts.changed answer hanswer
    exact ⟨hdone.others, hdone.newest⟩

/-- A release that was installed and upgraded twice, keeping two. -/
def upgradedTwice : Backend :=
  let key : ReleaseKey := ⟨"apps", "shop"⟩
  let chart : Chart := ⟨"shop", "1.0.0", "kind: ConfigMap\n"⟩
  let b := Backend.empty.register "oci://charts/shop" chart
  let b := (b.perform (.install key "oci://charts/shop" default)).2
  let b := (b.perform (.upgrade key "oci://charts/shop" default 2)).2
  (b.perform (.upgrade key "oci://charts/shop" default 2)).2

/-- It is rolled back, again keeping two. -/
theorem histories_of_reached_upgradedTwice :
    let key : ReleaseKey := ⟨"apps", "shop"⟩
    let before := upgradedTwice.history key
    let after := (upgradedTwice.perform (.rollback key 2)).2.history key
    upgradedTwice.Reached ∧ before.map Release.revision = [2, 3] ∧ Lineage key before ∧
      after.map Release.revision = [3, 4] ∧ ∃ next, Newest 2 before after next := by
  intro key before after
  have hreached : upgradedTwice.Reached :=
    ((((Reached.empty false).register _ _).perform _).perform _).perform _
  obtain ⟨-, hlineage, hrequests⟩ := histories_of_reached hreached
  have hbefore : (key, before) ∈ upgradedTwice.histories := by decide +kernel
  have hsucceeds : (upgradedTwice.perform (.rollback key 2)).1.toOption.isSome = true := by
    decide +kernel
  obtain ⟨answer, hanswer⟩ := Option.isSome_iff_exists.mp hsucceeds
  obtain ⟨-, hnewest⟩ := (hrequests (.rollback key 2)).2 answer (Fault.eq_ok_of_toOption hanswer)
  obtain ⟨next, -, hkept⟩ := hnewest 2 rfl
  exact ⟨hreached, by decide +kernel, (hlineage key before hbefore).1, by decide +kernel, next,
    hkept⟩

end Backend

end Chartkeeper
