import Chartkeeper.Decimal.Word
import Chartkeeper.Text.Cut
import Chartkeeper.Text.Hex
import Chartkeeper.Time.Instant
import Chartkeeper.Toml.Item.Basic
/-!
# TOML scalars

Reads texts in each of the four ways of quoting one, keys, and the bare words that stand for
truth values, numbers and moments.
-/

namespace Chartkeeper.Toml

/-- A space or a tab. -/
def isBlank (c : Char) : Bool :=
  c = ' ' || c = '\t'

/-- A character that may stand in texts and comments as itself: no control but the tab. -/
def isText (c : Char) : Bool :=
  c = '\t' || (0x20 ≤ c.toNat && c.toNat ≠ 0x7F)

/-- A line break: a line feed, or a carriage return with one. -/
def afterBreak? : List Char → Option (List Char)
  | '\n' :: rest => some rest
  | '\r' :: '\n' :: rest => some rest
  | _ => none

/-! ## Texts -/

/-- Reads digits of base sixteen, exactly as many. -/
def readHex : (width value : Nat) → List Char → Option (Nat × List Char)
  | 0, value, cs => some (value, cs)
  | _ + 1, _, [] => none
  | width + 1, value, c :: rest => do
    let d ← Text.hexValue? c
    readHex width (16 * value + d) rest

/-- The character of a number, if there is one. -/
def charOf? (n : Nat) : Option Char :=
  if n < 0xD800 || (0xE000 ≤ n && n < 0x110000) then some (Char.ofNat n) else none

/-- Reads an escape after its backslash. -/
def readEscape : List Char → Option (Char × List Char)
  | [] => none
  | c :: rest =>
    let byNumber (width : Nat) : Option (Char × List Char) := do
      let (n, rest) ← readHex width 0 rest
      let c ← charOf? n
      return (c, rest)
    if c = 'b' then some (Char.ofNat 0x08, rest)
    else if c = 't' then some ('\t', rest)
    else if c = 'n' then some ('\n', rest)
    else if c = 'f' then some (Char.ofNat 0x0C, rest)
    else if c = 'r' then some ('\r', rest)
    else if c = 'e' then some (Char.ofNat 0x1B, rest)
    else if c = '"' || c = '\\' then some (c, rest)
    else if c = 'x' then byNumber 2
    else if c = 'u' then byNumber 4
    else if c = 'U' then byNumber 8
    else none

/-- Reads a text of one line after its opening quote. -/
def readLine (quote : Char) : (fuel : Nat) → List Char → Option (List Char × List Char)
  | 0, _ => none
  | _ + 1, [] => none
  | fuel + 1, c :: rest =>
    if c = quote then some ([], rest)
    else if c = '\\' && quote = '"' then do
      let (x, rest) ← readEscape rest
      let (xs, rest) ← readLine quote fuel rest
      return (x :: xs, rest)
    else if isText c then (readLine quote fuel rest).map fun p => (c :: p.1, p.2)
    else none

/-- Drops blanks and line breaks. -/
def skipLines : List Char → List Char
  | [] => []
  | c :: rest =>
    if isBlank c || c = '\n' then skipLines rest
    else
      match c, rest with
      | '\r', '\n' :: rest => skipLines rest
      | _, _ => c :: rest

/-- What follows when blanks and then a line break come next, all white space dropped. -/
def afterContinuation? (cs : List Char) : Option (List Char) :=
  (afterBreak? (cs.dropWhile isBlank)).map skipLines

/-- Reads a text of several lines after its opening quotes. Three quotes end it; up to two more
before them belong to it. -/
def readLines (quote : Char) : (fuel : Nat) → List Char → Option (List Char × List Char)
  | 0, _ => none
  | _ + 1, [] => none
  | fuel + 1, c :: rest =>
    if c = quote then
      let run := (c :: rest).takeWhile (· = quote)
      if run.length < 3 then (readLines quote fuel rest).map fun p => (c :: p.1, p.2)
      else some ((run.drop 3).take 2, rest.drop (min run.length 5 - 1))
    else if c = '\\' && quote = '"' then
      match afterContinuation? rest with
      | some rest => readLines quote fuel rest
      | none => do
        let (x, rest) ← readEscape rest
        let (xs, rest) ← readLines quote fuel rest
        return (x :: xs, rest)
    else if isText c || (afterBreak? (c :: rest)).isSome then
      (readLines quote fuel rest).map fun p => (c :: p.1, p.2)
    else none

/-- Reads a text at its opening quotes. A line break right after three of them is dropped. -/
def readText : List Char → Option (List Char × List Char)
  | [] => none
  | quote :: rest =>
    if [quote, quote, quote].isPrefixOf (quote :: rest) then
      let body := rest.drop 2
      readLines quote (rest.length + 1) ((afterBreak? body).getD body)
    else readLine quote (rest.length + 1) rest

/-! ## Keys -/

/-- A character of bare keys. -/
def isBareKey (c : Char) : Bool :=
  c.isAlphanum || c = '_' || c = '-'

/-- Reads one part of a key: bare, or quoted on one line. -/
def readKeyPart : List Char → Option (String × List Char)
  | [] => none
  | c :: rest =>
    if c = '"' || c = '\'' then
      (readLine c (rest.length + 1) rest).map fun p => (String.ofList p.1, p.2)
    else
      let part := (c :: rest).takeWhile isBareKey
      if part.isEmpty then none
      else some (String.ofList part, (c :: rest).dropWhile isBareKey)

/-- Reads the parts of a key, separated by dots, with blanks around each. -/
def readKey : (fuel : Nat) → List Char → Option (List String × List Char)
  | 0, _ => none
  | fuel + 1, cs => do
    let (part, rest) ← readKeyPart (cs.dropWhile isBlank)
    match rest.dropWhile isBlank with
    | '.' :: rest =>
      let (parts, rest) ← readKey fuel rest
      return (part :: parts, rest)
    | rest => return ([part], rest)

/-! ## Words -/

/-- Digits with single underscores between them. -/
def digits? (isDigit : Char → Bool) (cs : List Char) : Option (List Char) :=
  let parts := Text.pieces '_' cs
  if parts.all fun part => !part.isEmpty && part.all isDigit then some parts.flatten else none

/-- Drops a sign, and says whether it was a minus. -/
def afterSign : List Char → Bool × List Char
  | '-' :: rest => (true, rest)
  | '+' :: rest => (false, rest)
  | cs => (false, cs)

/-- The number of digits of a base. -/
def natOfBase? (base : Nat) (cs : List Char) : Option Nat := do
  let ds ← digits? (fun c => (Text.hexValue? c).any (· < base)) cs
  return ds.foldl (fun n c => base * n + (Text.hexValue? c).getD 0) 0

/-- The digits of a decimal number that has no leading zero. -/
def decimalDigits? (cs : List Char) : Option (List Char) := do
  let ds ← digits? Char.isDigit cs
  if ds.head? = some '0' && 1 < ds.length then none else some ds

/-- A whole number: with a sign in base ten, without one in the other bases. -/
def whole? (cs : List Char) : Option Int :=
  match cs with
  | '0' :: 'x' :: rest => (natOfBase? 16 rest).map Int.ofNat
  | '0' :: 'o' :: rest => (natOfBase? 8 rest).map Int.ofNat
  | '0' :: 'b' :: rest => (natOfBase? 2 rest).map Int.ofNat
  | _ => do
    let (negative, rest) := afterSign cs
    let ds ← decimalDigits? rest
    let n ← Text.digits? ds
    return if negative then -(n : Int) else n

/-- Whether a whole number can be kept at all: it has to fit 128 bits. -/
def isKept (n : Int) : Bool :=
  -(Word.half128 : Int) ≤ n && n < (Word.bound128 : Int)

/-- Whether a word is a number with a fraction or an exponent, or one of those that are no
numbers. -/
def isFraction (cs : List Char) : Bool :=
  let (_, body) := afterSign cs
  if body = "inf".toList || body = "nan".toList then true
  else
    let isExponentMark (c : Char) : Bool := c = 'e' || c = 'E'
    let front := body.takeWhile (!isExponentMark ·)
    let exponent := body.dropWhile (!isExponentMark ·)
    let exponentFits := exponent.isEmpty || (digits? Char.isDigit (afterSign (exponent.drop 1)).2).isSome
    let frontFits :=
      match Text.cutAt '.' front with
      | some (whole, part) =>
        (decimalDigits? whole).isSome && (digits? Char.isDigit part).isSome
      | none => !exponent.isEmpty && (decimalDigits? front).isSome
    exponentFits && frontFits

/-- The number of two digits, within a bound. -/
def twoDigits? (bound : Nat) (cs : List Char) : Option Nat :=
  if cs.length = 2 then (Text.digits? cs).filter (· ≤ bound) else none

/-- Whether a word is a day of the calendar. -/
def isDay (cs : List Char) : Bool :=
  match Text.pieces '-' cs with
  | [year, month, day] =>
    match Text.digits? year, twoDigits? 12 month, twoDigits? 31 day with
    | some y, some m, some d => year.length = 4 && Day.isValid ⟨y, m, d⟩
    | _, _, _ => false
  | _ => false

/-- Whether a word is a time of day. The seconds may be missing. -/
def isClock (cs : List Char) : Bool :=
  match Text.pieces ':' cs with
  | [hour, minute] => (twoDigits? 23 hour).isSome && (twoDigits? 59 minute).isSome
  | [hour, minute, second] =>
    let secondFits :=
      match Text.cutAt '.' second with
      | some (s, part) => (twoDigits? 60 s).isSome && (Text.digits? part).isSome
      | none => (twoDigits? 60 second).isSome
    (twoDigits? 23 hour).isSome && (twoDigits? 59 minute).isSome && secondFits
  | _ => false

/-- A time of day without the distance from UTC at its end. -/
def dropOffset (cs : List Char) : List Char :=
  match cs.reverse with
  | 'Z' :: rest | 'z' :: rest => rest.reverse
  | m :: m' :: ':' :: h :: h' :: sign :: rest =>
    if (sign = '+' || sign = '-') && (twoDigits? 23 [h', h]).isSome && (twoDigits? 59 [m', m]).isSome
    then rest.reverse
    else cs
  | _ => cs

/-- Whether a word is a moment: a day, a time of day, or both with or without a distance from
UTC. -/
def isMoment (cs : List Char) : Bool :=
  isDay cs || isClock cs
    || (isDay (cs.take 10) && ['T', 't', ' '].contains ((cs[10]?).getD 'x')
      && isClock (dropOffset (cs.drop 11)))

/-- What a bare word stands for. -/
def word? (cs : List Char) : Option Item :=
  if cs = "true".toList then some (.truth true)
  else if cs = "false".toList then some (.truth false)
  else
    match whole? cs with
    | some n => if isKept n then some (.whole n) else none
    | none =>
      if isFraction cs then some (.fraction (String.ofList cs))
      else if isMoment cs then some (.moment (String.ofList cs))
      else none

/-- A character of bare words. -/
def isWord (c : Char) : Bool :=
  c.isAlphanum || ['+', '-', '.', ':', '_'].contains c

/-- Reads a bare word. A day goes on after a space when a time of day follows. -/
def readWord (cs : List Char) : Option (Item × List Char) := do
  let first := cs.takeWhile isWord
  let rest := cs.dropWhile isWord
  let (found, rest) :=
    match rest with
    | ' ' :: d :: more =>
      if isDay first && d.isDigit then
        (first ++ ' ' :: (d :: more).takeWhile isWord, (d :: more).dropWhile isWord)
      else (first, rest)
    | _ => (first, rest)
  let item ← word? found
  return (item, rest)

end Chartkeeper.Toml
