import Chartkeeper.Decimal.Binary64
import Chartkeeper.Decimal.Word
import Chartkeeper.Json.Basic
import Chartkeeper.Text.Hex
/-!
# Reading JSON

Reads a text as one JSON value. Each step returns a value and the rest of the text, and is
bounded by the length of the text. Of two fields with one key the later one stays.
-/

namespace Chartkeeper.Json

/-- Drops the four characters that may stand between the parts of a value. -/
def skipSpace : List Char → List Char
  | c :: rest =>
    if c = ' ' || c = '\n' || c = '\t' || c = '\r' then skipSpace rest else c :: rest
  | [] => []

/-- Reads a fixed word. -/
def readWord (word : List Char) (cs : List Char) : Option (List Char) :=
  if word.isPrefixOf cs then some (cs.drop word.length) else none

/-! ## Numbers -/

/-- Takes digits into a word of 64 bits. Digits that no longer fit are counted, not kept. -/
def takeDigits (value dropped : Nat) (full : Bool) : List Char → Nat × Nat × Bool × List Char
  | [] => (value, dropped, full, [])
  | c :: rest =>
    if c.isDigit then
      let next := 10 * value + (c.toNat - '0'.toNat)
      if full || Word.bound64 ≤ next then takeDigits value (dropped + 1) true rest
      else takeDigits next dropped false rest
    else (value, dropped, full, c :: rest)

/-- A significand of 64 bits times a power of ten, each rounded to a double before they are
multiplied; `none` when the result is not finite. -/
def scaled? (significand : Nat) (exponent : Int) : Option Binary64 := do
  let x ← Binary64.round? significand 1
  if significand = 0 then return x
  if 0 ≤ exponent then
    if 308 < exponent then none
    else Binary64.mul? x (← Binary64.ofDecimal? 1 exponent)
  else if -308 ≤ exponent then
    Binary64.div? x (← Binary64.ofDecimal? 1 (-exponent))
  else
    let x ← Binary64.div? x (← Binary64.ofDecimal? 1 308)
    if -616 ≤ exponent then Binary64.div? x (← Binary64.ofDecimal? 1 (-exponent - 308))
    else Binary64.round? 0 1

/-- Reads the exponent of a number after its mark. -/
def readExponent (cs : List Char) : Option (Int × List Char) :=
  let (negative, cs) :=
    match cs with
    | '-' :: rest => (true, rest)
    | '+' :: rest => (false, rest)
    | cs => (false, cs)
  let ds := cs.takeWhile Char.isDigit
  if ds.isEmpty then none
  else
    -- an exponent of many digits is far outside the range in any case
    let n := (ds.dropWhile (· = '0')).take 9 |>.foldl (fun n c => 10 * n + (c.toNat - '0'.toNat)) 0
    some (if negative then -n else n, cs.dropWhile Char.isDigit)

/-- Reads a number whose sign has been taken. -/
def readNumber (negative : Bool) (cs : List Char) : Option (Json × List Char) := do
  let c ← cs.head?
  if !c.isDigit then none
  -- a leading zero stands alone
  let (whole, extra, full, rest) :=
    if c = '0' then (0, 0, false, cs.drop 1) else takeDigits 0 0 false cs
  let (significand, shift, rest, fraction) ←
    match rest with
    | '.' :: tail =>
      if (tail.head?.map Char.isDigit).getD false then
        let (value, dropped, _, rest) := takeDigits whole 0 full tail
        let taken := tail.length - rest.length - dropped
        some (value, (extra : Int) - taken, rest, true)
      else none
    | _ => some (whole, (extra : Int), rest, false)
  let (exponent, rest, scientific) ←
    match rest with
    | c :: tail =>
      if c = 'e' || c = 'E' then (readExponent tail).map fun p => (p.1, p.2, true)
      else some (0, rest, false)
    | [] => some ((0 : Int), rest, false)
  let signed : Int := if negative then -whole else whole
  if !fraction && !scientific && extra = 0 && !full && intInRange signed
      && !(negative && whole = 0) then
    return (.int signed, rest)
  let x ← scaled? significand (shift + exponent)
  return (.float (x.toDecimal negative), rest)

/-! ## Texts -/

/-- Reads four digits of base sixteen. -/
def readUnit : List Char → Option (Nat × List Char)
  | a :: b :: c :: d :: rest => do
    let a ← Text.hexValue? a
    let b ← Text.hexValue? b
    let c ← Text.hexValue? c
    let d ← Text.hexValue? d
    return (((a * 16 + b) * 16 + c) * 16 + d, rest)
  | _ => none

/-- Reads a text after its opening quote. A pair of surrogate units is one character; a unit
of a pair that stands alone is refused. -/
def readChars : (fuel : Nat) → List Char → Option (List Char × List Char)
  | 0, _ => none
  | _ + 1, [] => none
  | fuel + 1, c :: rest =>
    if c = '"' then some ([], rest)
    else if c.toNat < 0x20 then none
    else if c = '\\' then
      match rest with
      | [] => none
      | e :: rest =>
        let plain (x : Char) := (readChars fuel rest).map fun p => (x :: p.1, p.2)
        if e = '"' || e = '\\' || e = '/' then plain e
        else if e = 'n' then plain '\n'
        else if e = 'r' then plain '\r'
        else if e = 't' then plain '\t'
        else if e = 'b' then plain (Char.ofNat 0x08)
        else if e = 'f' then plain (Char.ofNat 0x0C)
        else if e = 'u' then
          match readUnit rest with
          | none => none
          | some (u, rest) =>
            if 0xD800 ≤ u && u < 0xDC00 then
              match rest with
              | '\\' :: 'u' :: rest =>
                match readUnit rest with
                | none => none
                | some (v, rest) =>
                  if 0xDC00 ≤ v && v < 0xE000 then
                    let point := 0x10000 + (u - 0xD800) * 0x400 + (v - 0xDC00)
                    (readChars fuel rest).map fun p => (Char.ofNat point :: p.1, p.2)
                  else none
              | _ => none
            else if 0xDC00 ≤ u && u < 0xE000 then none
            else (readChars fuel rest).map fun p => (Char.ofNat u :: p.1, p.2)
        else none
    else (readChars fuel rest).map fun p => (c :: p.1, p.2)

/-- Reads a text after its opening quote. -/
def readText (cs : List Char) : Option (String × List Char) :=
  (readChars (cs.length + 1) cs).map fun p => (String.ofList p.1, p.2)

/-! ## Values -/

mutual

/-- Reads one value. -/
def readValue : (fuel : Nat) → List Char → Option (Json × List Char)
  | 0, _ => none
  | fuel + 1, cs =>
    match skipSpace cs with
    | [] => none
    | c :: rest =>
      if c = '"' then (readText rest).map fun p => (.str p.1, p.2)
      else if c = '[' then
        match skipSpace rest with
        | ']' :: rest => some (.arr [], rest)
        | rest => (readItems fuel rest).map fun p => (.arr p.1, p.2)
      else if c = '\x7b' then
        match skipSpace rest with
        | '\x7d' :: rest => some (.obj [], rest)
        | rest => (readFields fuel rest).map fun p => (ofRows p.1, p.2)
      else if c = '-' then readNumber true rest
      else if c.isDigit then readNumber false (c :: rest)
      else if c = 'n' then (readWord "ull".toList rest).map fun r => (.null, r)
      else if c = 't' then (readWord "rue".toList rest).map fun r => (.bool true, r)
      else if c = 'f' then (readWord "alse".toList rest).map fun r => (.bool false, r)
      else none

/-- Reads the items of an array up to its closing bracket. -/
def readItems : (fuel : Nat) → List Char → Option (List Json × List Char)
  | 0, _ => none
  | fuel + 1, cs => do
    let (v, rest) ← readValue fuel cs
    match skipSpace rest with
    | ',' :: rest =>
      let (vs, rest) ← readItems fuel rest
      return (v :: vs, rest)
    | ']' :: rest => return ([v], rest)
    | _ => none

/-- Reads the fields of an object up to its closing brace. -/
def readFields : (fuel : Nat) → List Char → Option (List (String × Json) × List Char)
  | 0, _ => none
  | fuel + 1, cs =>
    match skipSpace cs with
    | '"' :: rest => do
      let (k, rest) ← readText rest
      match skipSpace rest with
      | ':' :: rest =>
        let (v, rest) ← readValue fuel rest
        match skipSpace rest with
        | ',' :: rest =>
          let (fs, rest) ← readFields fuel rest
          return ((k, v) :: fs, rest)
        | '\x7d' :: rest => return ([(k, v)], rest)
        | _ => none
      | _ => none
    | _ => none

end

/-- Reads a text that holds one value and nothing else. -/
def parse? (s : String) : Option Json :=
  let cs := s.toList
  match readValue (cs.length + 1) cs with
  | some (v, rest) => if (skipSpace rest).isEmpty then some v else none
  | none => none

end Chartkeeper.Json
