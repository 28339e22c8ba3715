import Mathlib.Logic.Basic
import Chartkeeper.Json.Basic
/-!
# JSON values as data

Which values are objects, and that two values are found to be the same exactly when they are
equal.
-/

namespace Chartkeeper.Json

variable {v : Json}

theorem isObj_iff : v.isObj = true ↔ ∃ fields, v = .obj fields := by
  cases v <;> simp [isObj]

/-- Only objects have keys. -/
theorem isObj_of_get? {key : String} {value : Json} (h : v.get? key = some value) :
    v.isObj = true := by
  cases v with
  | obj fields => rfl
  | null | bool | int | float | str | arr => exact nomatch h

mutual

theorem same_iff : ∀ {a b : Json}, same a b = true ↔ a = b
  | .arr items, .arr items' => by simp [same, sameItems_iff]
  | .obj fields, .obj fields' => by simp [same, sameFields_iff]
  | .null, b => by cases b <;> simp [same]
  | .bool _, b => by cases b <;> simp [same]
  | .int _, b => by cases b <;> simp [same]
  | .float _, b => by cases b <;> simp [same]
  | .str _, b => by cases b <;> simp [same]
  | .arr _, .null | .arr _, .bool _ | .arr _, .int _ | .arr _, .float _ | .arr _, .str _
  | .arr _, .obj _ => by simp [same]
  | .obj _, .null | .obj _, .bool _ | .obj _, .int _ | .obj _, .float _ | .obj _, .str _
  | .obj _, .arr _ => by simp [same]

theorem sameItems_iff : ∀ {as bs : List Json}, sameItems as bs = true ↔ as = bs
  | [], [] => by simp [sameItems]
  | [], _ :: _ => by simp [sameItems]
  | _ :: _, [] => by simp [sameItems]
  | a :: as, b :: bs => by simp [sameItems, same_iff, sameItems_iff]

theorem sameFields_iff : ∀ {as bs : List (String × Json)}, sameFields as bs = true ↔ as = bs
  | [], [] => by simp [sameFields]
  | [], _ :: _ => by simp [sameFields]
  | _ :: _, [] => by simp [sameFields]
  | (k, a) :: as, (l, b) :: bs => by simp [sameFields, same_iff, sameFields_iff, and_assoc]

end

instance : DecidableEq Json :=
  fun _ _ => decidable_of_iff _ same_iff

end Chartkeeper.Json
