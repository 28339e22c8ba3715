import Chartkeeper.Composition.Basic
import Chartkeeper.Fault
import Chartkeeper.Text.Assoc
/-!
# A store of compositions in memory

Records by key. There are two kinds of writes, and each leaves alone what the other is for: an
update writes metadata and spec, a status update writes the status. Both answer with the record
as it is stored then.
-/

namespace Chartkeeper

/-- A store of compositions, with the number of writes of each kind. -/
structure Store where
  records : Assoc String Composition
  updates : Nat
  statusUpdates : Nat
  /-- Why status updates fail, if they do. -/
  statusFailure : Option String
  deriving Repr

namespace Store

def empty : Store := ⟨[], 0, 0, none⟩

instance : Inhabited Store := ⟨empty⟩

/-- The record of a key. -/
def get? (s : Store) (key : String) : Option Composition :=
  Assoc.get? key s.records

/-- Puts a record in place, as it is. -/
def insert (s : Store) (c : Composition) : Store :=
  { s with records := Assoc.insert c.key c s.records }

/-- Writes metadata and spec; the status stays as stored. A record that is new is stored as a
whole. -/
def update (s : Store) (c : Composition) : Composition × Store :=
  let old := (s.get? c.key).getD c
  let stored := { old with metadata := c.metadata, spec := c.spec }
  (stored, { s.insert stored with updates := s.updates + 1 })

/-- Writes the status; everything else stays as stored. -/
def updateStatus (s : Store) (c : Composition) : Except Fault Composition × Store :=
  let s := { s with statusUpdates := s.statusUpdates + 1 }
  match s.statusFailure with
  | some reason => (.error (.persistence "update_status" reason), s)
  | none =>
    match s.get? c.key with
    | none => (.error (.persistence "update_status" (c.key ++ " not found")), s)
    | some old =>
      let stored := { old with status := c.status }
      (.ok stored, s.insert stored)

end Store

end Chartkeeper
