import Mathlib.Data.List.Induction
import Chartkeeper.Json.Row
import Chartkeeper.Proofs.Text.Lookup
/-!
# Columns of written records

What is found in the columns of a record that was written as named columns. A column that is left
out when its value is the one that stands in for it is read as that value, so leaving it out loses
nothing: this is `elim_omitted`, and with it the look-ups below read every written record back.

- `get?_ofRows_append`, `get?_ofRows_cons`: what stands in a column.
- `elim_omitted`: a column that was left out.
- `list?_map`, `texts?_ofTexts`: lists and tables of values.
-/

namespace Chartkeeper

/-! ## What stands in a column -/

namespace Table

variable {α : Type}

@[simp] theorem get?_ofRows_nil (key : String) :
    get? key (ofRows ([] : List (String × α))) = none :=
  rfl

/-- Of two rows with one key the later one stays. -/
theorem get?_foldl_insert (key : String) (rows : List (String × α)) (t : Table α) :
    get? key (rows.foldl (fun t row => t.insert row.1 row.2) t) =
      (get? key (ofRows rows)).or (get? key t) := by
  induction rows using List.reverseRecOn with
  | nil => rfl
  | append_singleton rows row ih =>
    unfold ofRows
    rw [List.foldl_append, List.foldl_append]
    show get? key (insert row.1 row.2 _) = (get? key (insert row.1 row.2 (ofRows rows))).or _
    by_cases hkey : key = row.1
    · subst hkey
      simp
    · rw [get?_insert_of_ne hkey, get?_insert_of_ne hkey, ih]

@[simp] theorem get?_ofRows_append (key : String) (front back : List (String × α)) :
    get? key (ofRows (front ++ back)) = (get? key (ofRows back)).or (get? key (ofRows front)) := by
  rw [ofRows, List.foldl_append]
  exact get?_foldl_insert key back (ofRows front)

@[simp] theorem get?_ofRows_cons (key : String) (row : String × α) (rest : List (String × α)) :
    get? key (ofRows (row :: rest)) =
      (get? key (ofRows rest)).or (if row.1 = key then some row.2 else none) :=
  get?_foldl_insert key rest [row]

end Table

namespace Json

@[simp] theorem get?_ofRows_textUnlessEmpty (key name s : String) :
    Table.get? key (Table.ofRows (textUnlessEmpty name s)) =
      if name = key then if s = "" then none else some (.str s) else none := by
  unfold textUnlessEmpty
  by_cases h : s = "" <;> simp [h]

@[simp] theorem get?_ofRows_listUnlessEmpty {α : Type} (key name : String) (write : α → Json)
    (items : List α) :
    Table.get? key (Table.ofRows (listUnlessEmpty name write items)) =
      if name = key then if items = [] then none else some (.arr (items.map write)) else none := by
  unfold listUnlessEmpty
  by_cases h : items = [] <;> simp [h]

@[simp] theorem get?_ofRows_textsUnlessEmpty (key name : String) (t : Table String) :
    Table.get? key (Table.ofRows (textsUnlessEmpty name t)) =
      if name = key then if t = [] then none else some (ofTexts t) else none := by
  unfold textsUnlessEmpty
  by_cases h : t = [] <;> simp [h]

end Json

/-! ## Reading a column -/

namespace Row

variable {α : Type}

@[simp] theorem ofJson?_ofRows (columns : Nat) (rows : List (String × Json)) :
    Row.ofJson? columns (.ofRows rows) = some (.named (Table.ofRows rows)) :=
  (rfl)

@[simp] theorem required_named (t : Table Json) (column : Nat) (name : String)
    (read : Json → Option α) :
    (Row.named t).required column name read = (Table.get? name t).bind read :=
  (rfl)

@[simp] theorem defaulted_named (t : Table Json) (column : Nat) (name : String)
    (read : Json → Option α) (missing : α) :
    (Row.named t).defaulted column name read missing =
      (Table.get? name t).elim (some missing) read := by
  have hcell : (Row.named t).cell? column name = Table.get? name t := rfl
  unfold defaulted
  rw [hcell]
  cases Table.get? name t with
  | none => rfl
  | some v => rfl

/-- **A column that was left out** is read as the value for which it was left out. -/
@[simp] theorem elim_omitted {read : Json → Option α} {a missing : α} [Decidable (a = missing)]
    {v : Json} (h : read v = some a) :
    (if a = missing then none else some v).elim (some missing) read = some a := by
  by_cases hmissing : a = missing
  · rw [if_pos hmissing, hmissing]
    rfl
  · rw [if_neg hmissing]
    exact h

/-- An optional column is read back if there is one that is not null, and also if there is none. -/
theorem optional_named {t : Table Json} {column : Nat} {name : String} {read : Json → Option α}
    (a? : Option α) (write : α → Json)
    (h : ∀ a ∈ a?, (write a).isNull = false ∧ read (write a) = some a)
    (hcell : Table.get? name t = a?.map write ∨
      Table.get? name t = some ((a?.map write).getD .null)) :
    (Row.named t).optional column name read = some a? := by
  unfold optional
  rw [defaulted_named]
  cases a? with
  | none =>
    rcases hcell with hcell | hcell
    · rw [hcell]
      rfl
    · rw [hcell]
      rfl
  | some a =>
    obtain ⟨hnull, hread⟩ := h a rfl
    have hcell : Table.get? name t = some (write a) := hcell.elim id id
    rw [hcell]
    simp [hnull, hread]

end Row

/-! ## Values in a column -/

namespace Json

variable {α : Type}

-- Not by `rfl` alone: `simp` meets this goal as the hypothesis of another rule.
@[simp] theorem str?_str (s : String) : str? (.str s) = some s := (rfl)

@[simp] theorem bool?_bool (b : Bool) : bool? (.bool b) = some b := rfl

/-! `Option.bind_some` and `Option.elim_some` as rewriting steps of their own: where these are used
as definitions, the bound of a number that is read is unfolded. -/

theorem some_bind {β : Type} (a : α) (f : α → Option β) : (some a).bind f = f a := (rfl)

theorem some_elim {β : Type} (a : α) (missing : β) (f : α → β) :
    (some a).elim missing f = f a :=
  (rfl)

theorem natBelow?_int {n bound : Nat} (h : n < bound) : natBelow? bound (.int n) = some n := by
  simp [natBelow?, h]

/-- Lists are read back item by item. -/
@[simp] theorem list?_map {read : Json → Option α} {write : α → Json} {items : List α}
    (h : ∀ a ∈ items, read (write a) = some a) :
    list? read (.arr (items.map write)) = some items := by
  show (items.map write).mapM read = some items
  induction items with
  | nil => rfl
  | cons a rest ih =>
    obtain ⟨ha, hrest⟩ := List.forall_mem_cons.mp h
    simp [ha, ih hrest]

@[simp] theorem texts?_ofTexts (t : Table String) : (ofTexts t).texts? = some t := by
  show Table.mapValues? str? (t.map fun row => (row.1, .str row.2)) = some t
  induction t with
  | nil => rfl
  | cons row rest ih =>
    obtain ⟨key, s⟩ := row
    simp [Table.mapValues?, ih]

end Json

end Chartkeeper
