import Chartkeeper.Decimal.Binary64
import Chartkeeper.Decimal.Word
import Chartkeeper.Text.Cut
import Chartkeeper.Text.Hex
/-!
# What plain scalars stand for

A plain scalar is null, a truth value, a whole number or a number with a fraction if it is
written as one, and else a text. Digits after a leading zero are a text.
-/

namespace Chartkeeper.Yaml.Plain

/-- Whether a text is a word for null. The empty text is not one of them. -/
def isNull (s : String) : Bool :=
  s == "~" || s == "null" || s == "Null" || s == "NULL"

/-- The truth value that a text is a word for. -/
def bool? (s : String) : Option Bool :=
  if s == "true" || s == "True" || s == "TRUE" then some true
  else if s == "false" || s == "False" || s == "FALSE" then some false
  else none

/-- Drops a sign. -/
def unsigned : List Char → List Char
  | '+' :: rest => rest
  | '-' :: rest => rest
  | cs => cs

/-- Whether a text is made of digits after a leading zero, with or without a sign. -/
def hasLeadingZero (cs : List Char) : Bool :=
  match unsigned cs with
  | '0' :: d :: rest => (d :: rest).all Char.isDigit
  | _ => false

/-- The number that digits of a base stand for. -/
def natOfBase? (base : Nat) (cs : List Char) : Option Nat :=
  if cs.isEmpty then none
  else
    cs.foldlM
      (fun n c => do
        let d ← Text.hexValue? c
        if d < base then some (base * n + d) else none)
      0

/-- The magnitude of a whole number, in any of the four bases. -/
def magnitude? (cs : List Char) : Option Nat :=
  match cs with
  | '0' :: 'x' :: rest => natOfBase? 16 rest
  | '0' :: 'o' :: rest => natOfBase? 8 rest
  | '0' :: 'b' :: rest => natOfBase? 2 rest
  | cs => natOfBase? 10 cs

/-- The whole number that a text stands for, within 128 bits. -/
def int? (s : String) : Option Int :=
  let cs := s.toList
  if hasLeadingZero cs then none
  else
    match cs with
    | '-' :: rest => do
      let n ← magnitude? rest
      if n ≤ Word.half128 then some (-(n : Int)) else none
    | _ => do
      let n ← magnitude? (match cs with | '+' :: rest => rest | _ => cs)
      if n < Word.bound128 then some (n : Int) else none

/-- A number with a fraction: a decimal, or one of the three values that are no numbers. -/
inductive Float where
  | finite (d : Decimal)
  | special

/-- Reads digits, a point, an exponent: as much as there is, but at least one digit before the
exponent. -/
def decimal? (cs : List Char) : Option Decimal :=
  let (negative, cs) := match cs with
    | '-' :: rest => (true, rest)
    | cs => (false, cs)
  let whole := cs.takeWhile Char.isDigit
  let rest := cs.dropWhile Char.isDigit
  let (part, rest) := match rest with
    | '.' :: rest => (rest.takeWhile Char.isDigit, rest.dropWhile Char.isDigit)
    | rest => ([], rest)
  let exponent : Option Int := match rest with
    | [] => some 0
    | e :: rest =>
      if e = 'e' || e = 'E' then
        match rest with
        | '-' :: ds => (Text.digits? ds).map fun n => -(n : Int)
        | '+' :: ds => (Text.digits? ds).map fun n => (n : Int)
        | ds => (Text.digits? ds).map fun n => (n : Int)
      else none
  do
    let n ← Text.digits? (whole ++ part)
    let e ← exponent
    -- the point is shifted behind the last digit
    Decimal.ofParts? negative n (e - part.length)

/-- The number with a fraction that a text stands for. One too large to be finite is none. -/
def float? (s : String) : Option Float :=
  let cs := s.toList
  let positive := match cs with
    | '+' :: rest => rest
    | cs => cs
  if cs.head? = some '+' && (positive.head? = some '+' || positive.head? = some '-') then none
  else if [".inf", ".Inf", ".INF"].contains (String.ofList positive)
      || ["-.inf", "-.Inf", "-.INF", ".nan", ".NaN", ".NAN"].contains s then some .special
  else (decimal? positive).map .finite

/-- What a plain scalar stands for. -/
inductive Value where
  | null
  | bool (b : Bool)
  | int (n : Int)
  | float (x : Float)
  | text

/-- What a plain scalar stands for. -/
def value (s : String) : Value :=
  if s.isEmpty || isNull s then .null
  else
    match bool? s with
    | some b => .bool b
    | none =>
      match int? s with
      | some n => .int n
      | none =>
        if hasLeadingZero s.toList then .text
        else
          match float? s with
          | some x => .float x
          | none => .text

end Chartkeeper.Yaml.Plain
