/-!
# Cutting texts

Texts are cut at single characters or short marks. The functions work on lists of characters,
so that what they return can be appended again: every cut keeps both sides.
-/

namespace Chartkeeper.Text

/-- The part before the first `c` and the part after it; `none` when `c` does not occur. -/
def cutAt (c : Char) : List Char → Option (List Char × List Char)
  | [] => none
  | d :: rest =>
    if d = c then some ([], rest)
    else (cutAt c rest).map fun p => (d :: p.1, p.2)

/-- The pieces between the occurrences of `c`; a text without `c` is one piece. -/
def pieces (c : Char) : List Char → List (List Char)
  | [] => [[]]
  | d :: rest =>
    if d = c then [] :: pieces c rest
    else
      match pieces c rest with
      | [] => [[d]]
      | p :: ps => (d :: p) :: ps

/-- What is left of a text after a mark it starts with. -/
def afterStart? : (mark text : List Char) → Option (List Char)
  | [], text => some text
  | _ :: _, [] => none
  | m :: mark, c :: text => if m = c then afterStart? mark text else none

/-- The parts before and after the first occurrence of a mark. -/
def cutMark (mark : List Char) : List Char → Option (List Char × List Char)
  | [] => if mark.isEmpty then some ([], []) else none
  | c :: rest =>
    match afterStart? mark (c :: rest) with
    | some tail => some ([], tail)
    | none => (cutMark mark rest).map fun p => (c :: p.1, p.2)

/-- The decimal digits of a text, or `none` when there is none or another character occurs. -/
def digits? (cs : List Char) : Option Nat :=
  if cs.isEmpty || !cs.all Char.isDigit then none
  else some (cs.foldl (fun n c => 10 * n + (c.toNat - '0'.toNat)) 0)

/-- A number written with at least `width` decimal digits. -/
def padded (width n : Nat) : String :=
  let ds := Nat.toDigits 10 n
  String.ofList (List.replicate (width - ds.length) '0' ++ ds)

end Chartkeeper.Text
