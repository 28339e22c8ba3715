/-!
# Association lists

Finite maps whose order nobody reads: a list of pairs in the order in which the keys first
came. Setting a key that is there replaces its pair in place, so setting and then erasing a
new key gives the list back.
-/

namespace Chartkeeper

/-- Pairs of a key and a value. -/
abbrev Assoc (κ ν : Type) := List (κ × ν)

namespace Assoc

variable {κ ν : Type} [DecidableEq κ]

def get? (key : κ) : Assoc κ ν → Option ν
  | [] => none
  | (k, v) :: rest => if k = key then some v else get? key rest

/-- Sets the value of a key, in place or at the end. -/
def insert (key : κ) (value : ν) : Assoc κ ν → Assoc κ ν
  | [] => [(key, value)]
  | (k, v) :: rest => if k = key then (key, value) :: rest else (k, v) :: insert key value rest

def erase (key : κ) : Assoc κ ν → Assoc κ ν
  | [] => []
  | (k, v) :: rest => if k = key then rest else (k, v) :: erase key rest

end Assoc

end Chartkeeper
