import Mathlib.Data.List.Forall2
import Mathlib.Data.List.Sort
import Chartkeeper.Text.Assoc
import Chartkeeper.Text.Table
/-!
# Look-ups in association lists and tables

What each change does to every later look-up. Setting a key needs nothing of the list it is set
in; erasing one removes its first pair only, so the key is gone for good only where keys do not
repeat. Lists that grow from nothing by setting and erasing never repeat a key. Setting several
keys can be broken off anywhere and done again from the start, and erasing them undoes it for all
that was there before under other keys.
-/

namespace Chartkeeper

namespace Assoc

variable {κ ν : Type} [DecidableEq κ]

@[simp] theorem get?_insert_self (key : κ) (value : ν) :
    ∀ t : Assoc κ ν, get? key (insert key value t) = some value
  | [] => by simp [insert, get?]
  | (k, v) :: rest => by
      by_cases h : k = key
      · simp [insert, get?, h]
      · simp [insert, get?, h, get?_insert_self key value rest]

theorem get?_insert_of_ne {k key : κ} (hne : k ≠ key) (value : ν) :
    ∀ t : Assoc κ ν, get? k (insert key value t) = get? k t
  | [] => by simp [insert, get?, Ne.symm hne]
  | (k', v) :: rest => by
      by_cases h : k' = key
      · subst h
        simp [insert, get?, Ne.symm hne]
      · simp only [insert, if_neg h, get?, get?_insert_of_ne hne value rest]

theorem get?_erase_of_ne {k key : κ} (hne : k ≠ key) :
    ∀ t : Assoc κ ν, get? k (erase key t) = get? k t
  | [] => rfl
  | (k', v) :: rest => by
      by_cases h : k' = key
      · subst h
        simp [erase, get?, Ne.symm hne]
      · simp only [erase, if_neg h, get?, get?_erase_of_ne hne rest]

/-- A key has no value exactly when no pair carries it. -/
theorem get?_eq_none_iff {key : κ} : ∀ {t : Assoc κ ν},
    get? key t = none ↔ key ∉ t.map Prod.fst
  | [] => by simp [get?]
  | (k, v) :: rest => by
      by_cases h : k = key
      · simp [get?, h]
      · simp [get?, h, get?_eq_none_iff (t := rest), Ne.symm h]

/-- What is found is there. -/
theorem mem_of_get? {key : κ} {value : ν} : ∀ {t : Assoc κ ν},
    get? key t = some value → (key, value) ∈ t
  | (k, v) :: rest, h => by
      by_cases hkey : k = key
      · rw [get?, if_pos hkey] at h
        rw [hkey, Option.some.inj h]
        exact List.mem_cons_self
      · rw [get?, if_neg hkey] at h
        exact List.mem_cons_of_mem _ (mem_of_get? h)

/-- Setting a key adds no other pair. -/
theorem eq_or_mem_of_mem_insert {row : κ × ν} {key : κ} {value : ν} : ∀ {t : Assoc κ ν},
    row ∈ insert key value t → row = (key, value) ∨ row ∈ t
  | [], h => Or.inl (List.mem_singleton.mp h)
  | (k, v) :: rest, h => by
      by_cases hkey : k = key
      · rw [insert, if_pos hkey] at h
        rcases List.mem_cons.mp h with h | h
        · exact Or.inl h
        · exact Or.inr (List.mem_cons_of_mem _ h)
      · rw [insert, if_neg hkey] at h
        rcases List.mem_cons.mp h with rfl | h
        · exact Or.inr List.mem_cons_self
        · exact (eq_or_mem_of_mem_insert h).imp_right (List.mem_cons_of_mem _)

/-- Erasing a key adds no pair. -/
theorem mem_of_mem_erase {row : κ × ν} {key : κ} : ∀ {t : Assoc κ ν}, row ∈ erase key t → row ∈ t
  | (k, v) :: rest, h => by
      by_cases hkey : k = key
      · rw [erase, if_pos hkey] at h
        exact List.mem_cons_of_mem _ h
      · rw [erase, if_neg hkey] at h
        rcases List.mem_cons.mp h with rfl | h
        · exact List.mem_cons_self
        · exact List.mem_cons_of_mem _ (mem_of_mem_erase h)

/-- Where keys do not repeat, erasing one leaves no pair with it. -/
theorem get?_erase_self {key : κ} : ∀ {t : Assoc κ ν}, (t.map Prod.fst).Nodup →
    get? key (erase key t) = none
  | [], _ => rfl
  | (k, v) :: rest, h => by
      obtain ⟨hk, hrest⟩ := List.nodup_cons.mp h
      by_cases hkey : k = key
      · subst hkey
        simpa [erase] using get?_eq_none_iff.mpr hk
      · simp only [erase, if_neg hkey, get?]
        exact get?_erase_self hrest

theorem mem_keys_insert {k key : κ} {value : ν} : ∀ {t : Assoc κ ν},
    k ∈ (insert key value t).map Prod.fst ↔ k = key ∨ k ∈ t.map Prod.fst
  | [] => by simp [insert]
  | (k', v) :: rest => by
      by_cases h : k' = key
      · subst h
        simp [insert]
      · simp only [insert, if_neg h, List.map_cons, List.mem_cons,
          mem_keys_insert (t := rest)]
        exact or_left_comm

theorem mem_keys_of_mem_erase {k key : κ} : ∀ {t : Assoc κ ν},
    k ∈ (erase key t).map Prod.fst → k ∈ t.map Prod.fst
  | (k', v) :: rest, h => by
      by_cases hk : k' = key
      · rw [erase, if_pos hk] at h
        exact List.mem_cons_of_mem _ h
      · rw [erase, if_neg hk, List.map_cons, List.mem_cons] at h
        rcases h with rfl | h
        · exact List.mem_cons_self
        · exact List.mem_cons_of_mem _ (mem_keys_of_mem_erase h)

theorem nodup_keys_insert {key : κ} {value : ν} : ∀ {t : Assoc κ ν},
    (t.map Prod.fst).Nodup → ((insert key value t).map Prod.fst).Nodup
  | [], _ => by simp [insert]
  | (k, v) :: rest, h => by
      obtain ⟨hk, hrest⟩ := List.nodup_cons.mp h
      by_cases hkey : k = key
      · subst hkey
        simpa [insert] using h
      · rw [insert, if_neg hkey]
        refine List.nodup_cons.mpr ⟨?_, nodup_keys_insert hrest⟩
        rw [mem_keys_insert]
        rintro (rfl | hmem)
        · exact hkey rfl
        · exact hk hmem

theorem nodup_keys_erase {key : κ} : ∀ {t : Assoc κ ν},
    (t.map Prod.fst).Nodup → ((erase key t).map Prod.fst).Nodup
  | [], _ => List.nodup_nil
  | (k, v) :: rest, h => by
      obtain ⟨hk, hrest⟩ := List.nodup_cons.mp h
      by_cases hkey : k = key
      · rw [erase, if_pos hkey]
        exact hrest
      · rw [erase, if_neg hkey]
        exact List.nodup_cons.mpr
          ⟨fun hmem => hk (mem_keys_of_mem_erase hmem), nodup_keys_erase hrest⟩

/-! ## Setting several keys -/

theorem insert_insert_self (key : κ) (value value' : ν) :
    ∀ t : Assoc κ ν, insert key value (insert key value' t) = insert key value t
  | [] => by simp [insert]
  | (k, v) :: rest => by
      by_cases h : k = key
      · simp [insert, h]
      · simp [insert, h, insert_insert_self key value value' rest]

/-- A key that is there keeps its place, so it does not matter when its value is set. -/
theorem insert_comm {k key : κ} (hne : k ≠ key) (v value : ν) : ∀ {t : Assoc κ ν},
    k ∈ t.map Prod.fst → insert k v (insert key value t) = insert key value (insert k v t)
  | (k', v') :: rest, h => by
      by_cases hk : k' = k
      · simp [insert, hk, hne]
      · have hrest : k ∈ rest.map Prod.fst := by
          rcases List.mem_cons.mp h with rfl | hrest
          · exact absurd rfl hk
          · exact hrest
        by_cases hkey : k' = key
        · simp [insert, hkey, hne.symm]
        · simp [insert, hk, hkey, insert_comm hne v value hrest]

/-- Sets the values of several keys, one after the other. -/
def insertAll (rows : List (κ × ν)) (t : Assoc κ ν) : Assoc κ ν :=
  rows.foldl (fun t row => insert row.1 row.2 t) t

theorem insertAll_cons (row : κ × ν) (rows : List (κ × ν)) (t : Assoc κ ν) :
    insertAll (row :: rows) t = insertAll rows (insert row.1 row.2 t) :=
  rfl

theorem insertAll_append (rows rows' : List (κ × ν)) (t : Assoc κ ν) :
    insertAll (rows ++ rows') t = insertAll rows' (insertAll rows t) :=
  List.foldl_append

theorem mem_keys_insertAll {k : κ} : ∀ {rows : List (κ × ν)} {t : Assoc κ ν},
    k ∈ t.map Prod.fst → k ∈ (insertAll rows t).map Prod.fst
  | [], _, h => h
  | row :: rows, _, h => by
      rw [insertAll_cons]
      exact mem_keys_insertAll (mem_keys_insert.mpr (Or.inr h))

/-- The value that a key has before does not matter if it is set anyway. -/
theorem insertAll_insert_of_mem {key : κ} {value : ν} : ∀ {rows : List (κ × ν)} {t : Assoc κ ν},
    key ∈ rows.map Prod.fst → key ∈ t.map Prod.fst →
    insertAll rows (insert key value t) = insertAll rows t
  | (k, v) :: rest, t, hrows, ht => by
      rw [insertAll_cons, insertAll_cons]
      by_cases hk : k = key
      · subst hk
        rw [insert_insert_self]
      · have hrest : key ∈ rest.map Prod.fst := by
          rcases List.mem_cons.mp hrows with rfl | hrest
          · exact absurd rfl hk
          · exact hrest
        rw [← insert_comm (Ne.symm hk) value v ht]
        exact insertAll_insert_of_mem hrest (mem_keys_insert.mpr (Or.inr ht))

/-- It does not matter either when it is set, if nothing else sets it. -/
theorem insert_insertAll_of_not_mem {key : κ} {value : ν} :
    ∀ {rows : List (κ × ν)} {t : Assoc κ ν}, key ∉ rows.map Prod.fst → key ∈ t.map Prod.fst →
    insert key value (insertAll rows t) = insertAll rows (insert key value t)
  | [], _, _, _ => rfl
  | (k, v) :: rest, t, hrows, ht => by
      obtain ⟨hk, hrest⟩ := not_or.mp (mt List.mem_cons.mpr hrows)
      rw [insertAll_cons, insertAll_cons, ← insert_comm hk value v ht]
      exact insert_insertAll_of_not_mem hrest (mem_keys_insert.mpr (Or.inr ht))

/-- What was set once is not changed by setting it again. -/
theorem insertAll_self : ∀ (rows : List (κ × ν)) (t : Assoc κ ν),
    insertAll rows (insertAll rows t) = insertAll rows t
  | [], _ => rfl
  | (k, v) :: rest, t => by
      rw [insertAll_cons, insertAll_cons]
      have hthere : k ∈ (insert k v t).map Prod.fst := mem_keys_insert.mpr (Or.inl rfl)
      by_cases hk : k ∈ rest.map Prod.fst
      · rw [insertAll_insert_of_mem hk (mem_keys_insertAll hthere), insertAll_self]
      · rw [insert_insertAll_of_not_mem hk hthere, insert_insert_self, insertAll_self]

theorem get?_insertAll_of_not_mem {k : κ} : ∀ {rows : List (κ × ν)} {t : Assoc κ ν},
    k ∉ rows.map Prod.fst → get? k (insertAll rows t) = get? k t
  | [], _, _ => rfl
  | (key, value) :: rest, t, h => by
      obtain ⟨hkey, hrest⟩ := not_or.mp (mt List.mem_cons.mpr h)
      rw [insertAll_cons, get?_insertAll_of_not_mem hrest, get?_insert_of_ne hkey]

/-- Of keys that differ, each has the value then that it was set to. -/
theorem get?_insertAll_of_mem {row : κ × ν} : ∀ {rows : List (κ × ν)} {t : Assoc κ ν},
    (rows.map Prod.fst).Nodup → row ∈ rows → get? row.1 (insertAll rows t) = some row.2
  | first :: rest, t, hnodup, hrow => by
      obtain ⟨hkey, hrest⟩ := List.nodup_cons.mp hnodup
      rw [insertAll_cons]
      rcases List.mem_cons.mp hrow with rfl | hrow
      · rw [get?_insertAll_of_not_mem hkey, get?_insert_self]
      · exact get?_insertAll_of_mem hrest hrow

/-- What was begun and then done from the start is done. -/
theorem insertAll_of_isPrefix {rows all : List (κ × ν)} (h : rows <+: all) (t : Assoc κ ν) :
    insertAll all (insertAll rows t) = insertAll all t := by
  obtain ⟨rest, rfl⟩ := h
  rw [insertAll_append, insertAll_self, ← insertAll_append]

/-- Setting keys does not matter where they are left out. -/
theorem filter_insert {key : κ} {value : ν} {p : κ → Bool} (h : p key = false) :
    ∀ t : Assoc κ ν,
      (insert key value t).filter (fun row => p row.1) = t.filter fun row => p row.1
  | [] => by simp [insert, h]
  | (k, v) :: rest => by
      by_cases hk : k = key
      · simp [insert, hk, h]
      · simp only [insert, if_neg hk, List.filter_cons, filter_insert h rest]

theorem filter_insertAll {p : κ → Bool} : ∀ {rows : List (κ × ν)} {t : Assoc κ ν},
    (∀ row ∈ rows, p row.1 = false) →
      (insertAll rows t).filter (fun row => p row.1) = t.filter fun row => p row.1
  | [], _, _ => rfl
  | row :: rest, t, h => by
      obtain ⟨hrow, hrest⟩ := List.forall_mem_cons.mp h
      rw [insertAll_cons, filter_insertAll hrest, filter_insert hrow]

/-! ## Erasing several keys -/

/-- Erases several keys, one after the other. -/
def eraseAll (keys : List κ) (t : Assoc κ ν) : Assoc κ ν :=
  keys.foldl (fun t key => erase key t) t

theorem eraseAll_cons (key : κ) (keys : List κ) (t : Assoc κ ν) :
    eraseAll (key :: keys) t = eraseAll keys (erase key t) :=
  rfl

theorem get?_eraseAll_of_not_mem {k : κ} : ∀ {keys : List κ} {t : Assoc κ ν},
    k ∉ keys → get? k (eraseAll keys t) = get? k t
  | [], _, _ => rfl
  | key :: rest, t, h => by
      obtain ⟨hkey, hrest⟩ := not_or.mp (mt List.mem_cons.mpr h)
      rw [eraseAll_cons, get?_eraseAll_of_not_mem hrest, get?_erase_of_ne hkey]

/-- Where keys do not repeat, erasing one takes nothing else away. -/
theorem erase_eq_filter {key : κ} : ∀ {t : Assoc κ ν}, (t.map Prod.fst).Nodup →
    erase key t = t.filter fun row => decide (row.1 ≠ key)
  | [], _ => rfl
  | (k, v) :: rest, h => by
      obtain ⟨hk, hrest⟩ := List.nodup_cons.mp h
      by_cases hkey : k = key
      · subst hkey
        have hothers : ∀ row ∈ rest, decide (row.1 ≠ k) = true := fun row hrow =>
          decide_eq_true fun heq => hk (List.mem_map.mpr ⟨row, hrow, heq⟩)
        rw [erase, if_pos rfl, List.filter_cons_of_neg (by simp),
          List.filter_eq_self.mpr hothers]
      · have hother : decide ((k, v).1 ≠ key) = true := decide_eq_true hkey
        rw [erase, if_neg hkey, List.filter_cons, if_pos hother, erase_eq_filter hrest]

theorem eraseAll_eq_filter : ∀ {keys : List κ} {t : Assoc κ ν}, (t.map Prod.fst).Nodup →
    eraseAll keys t = t.filter fun row => decide (row.1 ∉ keys)
  | [], t, _ => (List.filter_eq_self.mpr fun _ _ => decide_eq_true List.not_mem_nil).symm
  | key :: rest, t, h => by
      rw [eraseAll_cons, eraseAll_eq_filter (nodup_keys_erase h), erase_eq_filter h,
        List.filter_filter]
      congr 1
      funext row
      simp [Bool.and_comm]

theorem get?_eraseAll_of_mem {k : κ} {keys : List κ} {t : Assoc κ ν} (hk : k ∈ keys)
    (h : (t.map Prod.fst).Nodup) : get? k (eraseAll keys t) = none := by
  rw [get?_eq_none_iff, eraseAll_eq_filter h]
  intro hmem
  obtain ⟨row, hrow, rfl⟩ := List.mem_map.mp hmem
  exact of_decide_eq_true (List.mem_filter.mp hrow).2 hk

/-! ## Two lists side by side -/

/-- The same keys in the same order, with values that are related. -/
def Rel {ν' : Type} (R : ν → ν' → Prop) (t : Assoc κ ν) (t' : Assoc κ ν') : Prop :=
  List.Forall₂ (fun row row' => row.1 = row'.1 ∧ R row.2 row'.2) t t'

namespace Rel

variable {ν' : Type} {R : ν → ν' → Prop} {t : Assoc κ ν} {t' : Assoc κ ν'}

theorem get? (h : Rel R t t') (key : κ) : Option.Rel R (t.get? key) (t'.get? key) := by
  induction h with
  | nil => exact .none
  | @cons row row' rest rest' hrow _ ih =>
    obtain ⟨k, v⟩ := row
    obtain ⟨k', v'⟩ := row'
    obtain ⟨rfl, hv⟩ := hrow
    unfold Assoc.get?
    by_cases hk : k = key
    · rw [if_pos hk, if_pos hk]
      exact .some hv
    · rw [if_neg hk, if_neg hk]
      exact ih

theorem insert (h : Rel R t t') (key : κ) {value : ν} {value' : ν'} (hvalue : R value value') :
    Rel R (t.insert key value) (t'.insert key value') := by
  induction h with
  | nil => exact .cons ⟨rfl, hvalue⟩ .nil
  | @cons row row' rest rest' hrow hrest ih =>
    obtain ⟨k, v⟩ := row
    obtain ⟨k', v'⟩ := row'
    obtain ⟨rfl, hv⟩ := hrow
    unfold Assoc.insert
    by_cases hk : k = key
    · rw [if_pos hk, if_pos hk]
      exact .cons ⟨rfl, hvalue⟩ hrest
    · rw [if_neg hk, if_neg hk]
      exact .cons ⟨rfl, hv⟩ ih

theorem erase (h : Rel R t t') (key : κ) : Rel R (t.erase key) (t'.erase key) := by
  induction h with
  | nil => exact .nil
  | @cons row row' rest rest' hrow hrest ih =>
    obtain ⟨k, v⟩ := row
    obtain ⟨k', v'⟩ := row'
    obtain ⟨rfl, hv⟩ := hrow
    unfold Assoc.erase
    by_cases hk : k = key
    · rw [if_pos hk, if_pos hk]
      exact hrest
    · rw [if_neg hk, if_neg hk]
      exact .cons ⟨rfl, hv⟩ ih

end Rel

end Assoc

namespace Table

variable {α : Type}

@[simp] theorem get?_insert_self (key : String) (value : α) :
    ∀ t : Table α, get? key (insert key value t) = some value
  | [] => by simp [insert, get?]
  | (k, v) :: rest => by
      by_cases h : k = key
      · simp [insert, get?, h]
      · by_cases hlt : key < k
        · simp [insert, get?, h, hlt]
        · simp [insert, get?, h, hlt, get?_insert_self key value rest]

theorem get?_insert_of_ne {k key : String} (hne : k ≠ key) (value : α) :
    ∀ t : Table α, get? k (insert key value t) = get? k t
  | [] => by simp [insert, get?, Ne.symm hne]
  | (k', v) :: rest => by
      by_cases h : k' = key
      · subst h
        simp [insert, get?, Ne.symm hne]
      · by_cases hlt : key < k'
        · simp [insert, get?, h, hlt, Ne.symm hne]
        · simp only [insert, if_neg h, if_neg hlt, get?, get?_insert_of_ne hne value rest]

/-! Looking up and erasing do not depend on the order of the rows. -/

theorem get?_eq_assoc (key : String) : ∀ t : Table α, get? key t = Assoc.get? key t
  | [] => rfl
  | (k, v) :: rest => by
      simp only [get?, Assoc.get?, get?_eq_assoc key rest]

theorem erase_eq_assoc (key : String) : ∀ t : Table α, erase key t = Assoc.erase key t
  | [] => rfl
  | (k, v) :: rest => by
      simp only [erase, Assoc.erase, erase_eq_assoc key rest]

theorem get?_erase_of_ne {k key : String} (hne : k ≠ key) (t : Table α) :
    get? k (erase key t) = get? k t := by
  rw [get?_eq_assoc, get?_eq_assoc, erase_eq_assoc]
  exact Assoc.get?_erase_of_ne hne t

theorem get?_eq_none_iff {key : String} {t : Table α} : get? key t = none ↔ key ∉ t.keys := by
  rw [get?_eq_assoc]
  exact Assoc.get?_eq_none_iff

/-- Where keys do not repeat, erasing one leaves no row with it. -/
theorem get?_erase_self {key : String} {t : Table α} (h : t.keys.Nodup) :
    get? key (erase key t) = none := by
  rw [get?_eq_assoc, erase_eq_assoc]
  exact Assoc.get?_erase_self h

theorem nodup_keys_erase {key : String} {t : Table α} (h : t.keys.Nodup) :
    (erase key t).keys.Nodup := by
  rw [erase_eq_assoc]
  exact Assoc.nodup_keys_erase h

theorem mem_keys_insert {k key : String} {value : α} : ∀ {t : Table α},
    k ∈ (insert key value t).keys ↔ k = key ∨ k ∈ t.keys
  | [] => by simp [insert, keys]
  | (k', v) :: rest => by
      have ih : k ∈ (insert key value rest).map Prod.fst ↔ k = key ∨ k ∈ rest.map Prod.fst :=
        mem_keys_insert
      by_cases h : k' = key
      · subst h
        simp [insert, keys]
      · by_cases hlt : key < k'
        · simp [insert, keys, h, hlt]
        · simp only [insert, if_neg h, if_neg hlt, keys, List.map_cons, List.mem_cons, ih]
          exact or_left_comm

theorem contains_eq_true_iff {key : String} {t : Table α} :
    t.contains key = true ↔ key ∈ t.keys := by
  rw [contains, Option.isSome_iff_ne_none, ne_eq, get?_eq_none_iff,
    Classical.not_not]

/-- Erasing a key that has no row changes nothing. -/
theorem erase_eq_self {key : String} : ∀ {t : Table α}, t.contains key = false → t.erase key = t
  | [], _ => rfl
  | (k, v) :: rest, h => by
      unfold contains get? at h
      by_cases hk : k = key
      · rw [if_pos hk] at h
        exact nomatch h
      · rw [if_neg hk] at h
        rw [erase, if_neg hk, erase_eq_self h]

theorem mem_keys_insertNew {k key : String} {value : α} {t : Table α} :
    k ∈ (insertNew key value t).keys ↔ k = key ∨ k ∈ t.keys := by
  by_cases h : t.contains key = true
  · rw [insertNew, if_pos h]
    constructor
    · exact Or.inr
    · rintro (rfl | hk)
      · exact contains_eq_true_iff.mp h
      · exact hk
  · rw [insertNew, if_neg h, mem_keys_insert]

/-- Where keys do not repeat, a row is what is found under its key. -/
theorem get?_eq_some_iff {key : String} {value : α} : ∀ {t : Table α}, t.keys.Nodup →
    (get? key t = some value ↔ (key, value) ∈ t)
  | [], _ => by simp [get?]
  | (k, v) :: rest, h => by
      obtain ⟨hk, hrest⟩ := List.nodup_cons.mp h
      by_cases hkey : k = key
      · subst hkey
        have hother : (k, value) ∉ rest := fun hmem =>
          hk (List.mem_map.mpr ⟨_, hmem, rfl⟩)
        simp [get?, hother, eq_comm]
      · simp [get?, hkey, Ne.symm hkey, get?_eq_some_iff hrest]

/-- A value that counts as missing may as well be set where there is none. -/
theorem getD_get?_insertNew {k key : String} {value : α} {t : Table α} :
    (get? k (insertNew key value t)).getD value = (get? k t).getD value := by
  unfold insertNew
  by_cases h : t.contains key = true
  · rw [if_pos h]
  · rw [if_neg h]
    by_cases hk : k = key
    · subst hk
      have hnone : get? k t = none := by
        rw [contains, Bool.not_eq_true, Option.isSome_eq_false_iff, Option.isNone_iff_eq_none] at h
        exact h
      rw [get?_insert_self, hnone]
      rfl
    · rw [get?_insert_of_ne hk]

theorem get?_insertNew (key k : String) (value : α) (t : Table α) :
    get? key (insertNew k value t) = (get? key t).or (if key = k then some value else none) := by
  unfold insertNew contains
  by_cases hkey : key = k
  · subst hkey
    cases h : get? key t with
    | none => simp
    | some v => simp [h]
  · rw [if_neg hkey, Option.or_none]
    split
    · rfl
    · exact get?_insert_of_ne hkey value t

theorem insert_insert_self (key : String) (value value' : α) :
    ∀ t : Table α, insert key value (insert key value' t) = insert key value t
  | [] => by simp [insert]
  | (k, v) :: rest => by
      by_cases h : k = key
      · simp [insert, h]
      · by_cases hlt : key < k
        · simp [insert, h, hlt]
        · simp [insert, h, hlt, insert_insert_self key value value' rest]

/-- Every row goes to the place of its key, so it does not matter which of two is set first. -/
theorem insert_comm {k key : String} (hne : k ≠ key) (v value : α) :
    ∀ t : Table α, insert k v (insert key value t) = insert key value (insert k v t)
  | [] => by grind [insert]
  | (k', v') :: rest => by
      have ih := insert_comm hne v value rest
      grind [insert]

/-- Setting a key does not matter where it is left out. -/
theorem filter_insert {key : String} {value : α} {p : String → Bool} (h : p key = false) :
    ∀ t : Table α,
      (insert key value t).filter (fun row => p row.1) = t.filter fun row => p row.1
  | [] => by simp [insert, h]
  | (k, v) :: rest => by
      by_cases hk : k = key
      · simp [insert, hk, h]
      · by_cases hlt : key < k
        · simp [insert, hk, hlt, h]
        · simp only [insert, if_neg hk, if_neg hlt, List.filter_cons, filter_insert h rest]

/-! ## Rows set one after another -/

section Setting

variable {β : Type} (f : β → α)

theorem get?_foldl_insert_of_not_mem {key : String} :
    ∀ {rows : List (String × β)} {t : Table α}, key ∉ rows.map Prod.fst →
      get? key (rows.foldl (fun t row => t.insert row.1 (f row.2)) t) = get? key t
  | [], _, _ => rfl
  | row :: rest, t, h => by
      obtain ⟨hne, hrest⟩ := not_or.mp (mt List.mem_cons.mpr h)
      rw [List.foldl_cons, get?_foldl_insert_of_not_mem hrest, get?_insert_of_ne hne]

theorem get?_foldl_insert_of_mem {row : String × β} :
    ∀ {rows : List (String × β)} {t : Table α}, (rows.map Prod.fst).Nodup → row ∈ rows →
      get? row.1 (rows.foldl (fun t row => t.insert row.1 (f row.2)) t) = some (f row.2)
  | first :: rest, t, hnodup, hrow => by
      obtain ⟨hkey, hrest⟩ := List.nodup_cons.mp hnodup
      rw [List.foldl_cons]
      rcases List.mem_cons.mp hrow with rfl | hrow
      · rw [get?_foldl_insert_of_not_mem f hkey, get?_insert_self]
      · exact get?_foldl_insert_of_mem hrest hrow

/-- The value that a key has before does not matter if it is set anyway. -/
theorem foldl_insert_of_mem {key : String} {value : α} :
    ∀ {rows : List (String × β)} {t : Table α}, key ∈ rows.map Prod.fst →
      rows.foldl (fun t row => t.insert row.1 (f row.2)) (t.insert key value) =
        rows.foldl (fun t row => t.insert row.1 (f row.2)) t
  | row :: rest, t, h => by
      rw [List.foldl_cons, List.foldl_cons]
      by_cases hrow : row.1 = key
      · rw [hrow, insert_insert_self]
      · have hrest : key ∈ rest.map Prod.fst :=
          (List.mem_cons.mp h).resolve_left (Ne.symm hrow)
        rw [insert_comm hrow]
        exact foldl_insert_of_mem hrest

/-- It does not matter either when it is set, if nothing else sets it. -/
theorem insert_foldl_insert_of_not_mem {key : String} {value : α} :
    ∀ {rows : List (String × β)} {t : Table α}, key ∉ rows.map Prod.fst →
      (rows.foldl (fun t row => t.insert row.1 (f row.2)) t).insert key value =
        rows.foldl (fun t row => t.insert row.1 (f row.2)) (t.insert key value)
  | [], _, _ => rfl
  | row :: rest, t, h => by
      obtain ⟨hrow, hrest⟩ := not_or.mp (mt List.mem_cons.mpr h)
      rw [List.foldl_cons, List.foldl_cons, insert_foldl_insert_of_not_mem hrest,
        insert_comm hrow]

/-- Rows that were set once are not changed by setting them again. -/
theorem foldl_insert_self : ∀ (rows : List (String × β)) (t : Table α),
    rows.foldl (fun t row => t.insert row.1 (f row.2))
        (rows.foldl (fun t row => t.insert row.1 (f row.2)) t) =
      rows.foldl (fun t row => t.insert row.1 (f row.2)) t
  | [], _ => rfl
  | row :: rest, t => by
      rw [List.foldl_cons, List.foldl_cons]
      by_cases hrow : row.1 ∈ rest.map Prod.fst
      · rw [foldl_insert_of_mem f hrow, foldl_insert_self]
      · rw [insert_foldl_insert_of_not_mem f hrow, insert_insert_self, foldl_insert_self]

theorem filter_foldl_insert {p : String → Bool} :
    ∀ {rows : List (String × β)} {t : Table α}, (∀ row ∈ rows, p row.1 = false) →
      (rows.foldl (fun t row => t.insert row.1 (f row.2)) t).filter (fun row => p row.1) =
        t.filter fun row => p row.1
  | [], _, _ => rfl
  | row :: rest, t, h => by
      obtain ⟨hrow, hrest⟩ := List.forall_mem_cons.mp h
      rw [List.foldl_cons, filter_foldl_insert hrest, filter_insert hrow]

end Setting

/-! ## The order of the rows -/

/-- The rows are in ascending order of their keys. -/
def Ascending (t : Table α) : Prop :=
  t.keys.Pairwise (· < ·)

instance (t : Table α) : Decidable t.Ascending :=
  inferInstanceAs (Decidable (t.keys.Pairwise (· < ·)))

theorem ascending_nil : Ascending ([] : Table α) :=
  List.Pairwise.nil

/-- So no key repeats. -/
theorem Ascending.nodup {t : Table α} (h : t.Ascending) : t.keys.Nodup :=
  h.imp fun {k key} (hlt : k < key) (heq : k = key) => String.lt_irrefl key (heq ▸ hlt)

/-- Tables in order are the same when they have the same rows. -/
theorem Ascending.ext_mem {t t' : Table α} (h : t.Ascending) (h' : t'.Ascending)
    (hmem : ∀ row, row ∈ t ↔ row ∈ t') : t = t' := by
  have hirrefl : Std.Irrefl fun row row' : String × α => row.1 < row'.1 :=
    ⟨fun row => String.lt_irrefl row.1⟩
  have hasymm : Std.Antisymm fun row row' : String × α => row.1 < row'.1 :=
    ⟨fun _ _ hlt hgt => absurd hgt (String.lt_asymm hlt)⟩
  exact List.Pairwise.eq_of_mem_iff (List.pairwise_map.mp h) (List.pairwise_map.mp h') hmem

/-- They are the same also when every look-up in them is. -/
theorem Ascending.ext {t t' : Table α} (h : t.Ascending) (h' : t'.Ascending)
    (hget : ∀ key, get? key t = get? key t') : t = t' := by
  refine h.ext_mem h' ?_
  rintro ⟨key, value⟩
  rw [← get?_eq_some_iff h.nodup, ← get?_eq_some_iff h'.nodup, hget]

/-- A table without values says which keys there are. -/
theorem Ascending.ext_keys {t t' : Table Unit} (h : t.Ascending) (h' : t'.Ascending)
    (hkeys : ∀ key, key ∈ t.keys ↔ key ∈ t'.keys) : t = t' := by
  refine h.ext h' fun key => ?_
  have hcontains : t.contains key = t'.contains key := by
    rw [Bool.eq_iff_iff, contains_eq_true_iff, contains_eq_true_iff, hkeys]
  unfold contains at hcontains
  match t.get? key, t'.get? key, hcontains with
  | none, none, _ | some _, some _, _ => rfl

theorem ascending_insert {key : String} {value : α} : ∀ {t : Table α},
    t.Ascending → (t.insert key value).Ascending
  | [], _ => List.pairwise_singleton _ _
  | (k, v) :: rest, h => by
      obtain ⟨hk, hrest⟩ := List.pairwise_cons.mp h
      unfold insert
      by_cases heq : k = key
      · rw [if_pos heq]
        exact List.pairwise_cons.mpr ⟨heq ▸ hk, hrest⟩
      · rw [if_neg heq]
        by_cases hlt : key < k
        · rw [if_pos hlt]
          refine List.pairwise_cons.mpr ⟨fun later hlater => ?_, h⟩
          rcases List.mem_cons.mp hlater with rfl | hlater
          · exact hlt
          · exact String.lt_trans hlt (hk later hlater)
        · rw [if_neg hlt]
          refine List.pairwise_cons.mpr ⟨fun later hlater => ?_, ascending_insert hrest⟩
          rcases mem_keys_insert.mp hlater with rfl | hlater
          · exact Std.lt_of_le_of_ne (String.not_lt.mp hlt) heq
          · exact hk later hlater

theorem ascending_erase {key : String} : ∀ {t : Table α}, t.Ascending → (t.erase key).Ascending
  | [], _ => List.Pairwise.nil
  | (k, v) :: rest, h => by
      obtain ⟨hk, hrest⟩ := List.pairwise_cons.mp h
      unfold erase
      by_cases heq : k = key
      · rw [if_pos heq]
        exact hrest
      · rw [if_neg heq]
        refine List.pairwise_cons.mpr ⟨fun later hlater => hk later ?_, ascending_erase hrest⟩
        rw [erase_eq_assoc] at hlater
        exact Assoc.mem_keys_of_mem_erase hlater

theorem ascending_insertNew {key : String} {value : α} {t : Table α} (h : t.Ascending) :
    (t.insertNew key value).Ascending := by
  unfold insertNew
  split
  · exact h
  · exact ascending_insert h

theorem ascending_ofRows (rows : List (String × α)) : (ofRows rows).Ascending := by
  unfold ofRows
  exact List.foldlRecOn rows _ ascending_nil fun _ h row _ => ascending_insert h

end Table

end Chartkeeper
