import Chartkeeper.Text.Blank
import Chartkeeper.Text.Cut
import Chartkeeper.Time.Instant
/-!
# RFC 3339

Instants as text. They are written in UTC with a `Z`, with no fraction or one of three, six or
nine digits. Two readers accept them: the strict one takes the profile of RFC 3339, the lenient
one also takes blanks between the parts, short numbers and years of any length with a sign.
-/

namespace Chartkeeper.Instant

open Text

/-! ## Writing -/

/-- A year: four digits, or a sign and at least four digits outside `0..9999`. -/
def yearText (year : Int) : String :=
  if 0 ≤ year && year ≤ 9999 then padded 4 year.toNat
  else (if year < 0 then "-" else "+") ++ padded 4 year.natAbs

/-- The text of an instant up to its seconds. A leap second is the sixtieth of its minute. -/
def secondsText (t : Instant) : String :=
  let d := t.day
  let s := (t.seconds % 86400).toNat
  let leap := if 1000000000 ≤ t.nanos then 1 else 0
  yearText d.year ++ "-" ++ padded 2 d.month ++ "-" ++ padded 2 d.day ++ "T"
    ++ padded 2 (s / 3600) ++ ":" ++ padded 2 (s / 60 % 60) ++ ":" ++ padded 2 (s % 60 + leap)

/-- The fewest of 0, 3, 6 and 9 digits that give the fraction exactly. -/
def fractionText (t : Instant) : String :=
  let n := t.nanos % 1000000000
  if n = 0 then ""
  else if n % 1000000 = 0 then "." ++ padded 3 (n / 1000000)
  else if n % 1000 = 0 then "." ++ padded 6 (n / 1000)
  else "." ++ padded 9 n

def text (t : Instant) : String :=
  t.secondsText ++ t.fractionText ++ "Z"

/-- The text of an instant to the second, the fraction dropped. -/
def textToSecond (t : Instant) : String :=
  t.secondsText ++ "Z"

/-! ## Reading -/

/-- The fields of a time of day and its distance from UTC in seconds. -/
structure Clock where
  hour : Nat
  minute : Nat
  second : Nat
  nanos : Nat
  offset : Int

/-- The instant of a day and a time of day, when both exist. -/
def ofParts? (d : Day) (c : Clock) : Option Instant :=
  if d.isValid && c.hour ≤ 23 && c.minute ≤ 59 && c.second ≤ 60 && c.offset.natAbs < 86400 then
    let leap := c.second = 60
    let second := if leap then 59 else c.second
    let seconds := d.toEpoch * 86400 + (c.hour * 3600 + c.minute * 60 + second : Nat) - c.offset
    let t : Instant := ⟨seconds, c.nanos + (if leap then 1000000000 else 0)⟩
    if t.isValid then some t else none
  else none

/-- Reads between `least` and `most` digits, as many as there are. -/
def readDigits (least most : Nat) (cs : List Char) : Option (Nat × List Char) :=
  let ds := (cs.take most).takeWhile Char.isDigit
  if ds.length < least then none
  else (digits? ds).map fun n => (n, cs.drop ds.length)

/-- Reads one of some characters. -/
def readOneOf (marks : List Char) : List Char → Option (List Char)
  | c :: rest => if marks.contains c then some rest else none
  | [] => none

/-- Reads a fraction of a second, if there is one. Digits after the ninth are dropped. -/
def readFraction : List Char → Option (Nat × List Char)
  | '.' :: rest => do
    let ds := (rest.take 9).takeWhile Char.isDigit
    let n ← digits? ds
    return (n * Nat.pow 10 (9 - ds.length), rest.dropWhile Char.isDigit)
  | cs => some (0, cs)

/-- Reads a distance from UTC: `Z`, or a sign, two digits of hours, what `separator` takes
off, and two digits of minutes. -/
def readOffset (separator : List Char → Option (List Char)) :
    List Char → Option (Int × List Char)
  | [] => none
  | c :: rest =>
    if c = 'Z' || c = 'z' then some (0, rest)
    else do
      let negative ← if c = '+' then some false else if c = '-' || c = '−' then some true else none
      let (hours, rest) ← readDigits 2 2 rest
      let rest ← separator rest
      let (minutes, rest) ← readDigits 2 2 rest
      if 59 < minutes then none
      else
        let seconds : Int := hours * 3600 + minutes * 60
        return (if negative then -seconds else seconds, rest)

/-- Reads the profile of RFC 3339: numbers of full width, and `T`, `t` or a blank between the
date and the time. -/
def readStrict? (s : String) : Option Instant := do
  let (year, cs) ← readDigits 4 4 s.toList
  let (month, cs) ← readDigits 2 2 (← readOneOf ['-'] cs)
  let (day, cs) ← readDigits 2 2 (← readOneOf ['-'] cs)
  let (hour, cs) ← readDigits 2 2 (← readOneOf ['T', 't', ' '] cs)
  let (minute, cs) ← readDigits 2 2 (← readOneOf [':'] cs)
  let (second, cs) ← readDigits 2 2 (← readOneOf [':'] cs)
  let (nanos, cs) ← readFraction cs
  let (offset, cs) ← readOffset (readOneOf [':']) cs
  if cs.isEmpty then ofParts? ⟨year, month, day⟩ ⟨hour, minute, second, nanos, offset⟩ else none

def skipBlank (cs : List Char) : List Char :=
  cs.dropWhile isBlank

/-- Reads a year: at most four digits, or a sign and any number of them. -/
def readYear (cs : List Char) : Option (Int × List Char) :=
  match skipBlank cs with
  | '-' :: rest => (readDigits 1 rest.length rest).map fun p => (-(p.1 : Int), p.2)
  | '+' :: rest => (readDigits 1 rest.length rest).map fun p => ((p.1 : Int), p.2)
  | rest => (readDigits 1 4 rest).map fun p => ((p.1 : Int), p.2)

/-- Reads a number of one or two digits, with blanks before it. -/
def readShort (cs : List Char) : Option (Nat × List Char) :=
  readDigits 1 2 (skipBlank cs)

/-- Reads an instant with blanks allowed between its parts and numbers of any width. -/
def readLenient? (s : String) : Option Instant := do
  let (year, cs) ← readYear s.toList
  let (month, cs) ← readShort (← readOneOf ['-'] (skipBlank cs))
  let (day, cs) ← readShort (← readOneOf ['-'] (skipBlank cs))
  -- no blanks before this mark, which may be a blank itself
  let (hour, cs) ← readShort (← readOneOf ['T', 't', ' '] cs)
  let (minute, cs) ← readShort (← readOneOf [':'] (skipBlank cs))
  let (second, cs) ← readShort (← readOneOf [':'] (skipBlank cs))
  let (nanos, cs) ← readFraction cs
  let cs := skipBlank cs
  let (offset, cs) ←
    if (cs.take 3).map Char.toUpper = ['U', 'T', 'C'] then some (0, cs.drop 3)
    else readOffset (fun cs => some (cs.dropWhile fun c => c = ':' || isBlank c)) cs
  if (skipBlank cs).isEmpty then
    ofParts? ⟨year, month, day⟩ ⟨hour, minute, second, nanos, offset⟩
  else none

end Chartkeeper.Instant
