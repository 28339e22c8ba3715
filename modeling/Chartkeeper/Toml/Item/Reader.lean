import Chartkeeper.Toml.Scalar
/-!
# Reading TOML

Reads a document line by line: each line may give a key its item, or open a table with a header.
Lists and inline tables nest up to eighty levels. A byte-order mark may stand at the start.
-/

namespace Chartkeeper.Toml

/-- Drops a comment up to the end of its line; `none` if a control character is in it. -/
def afterComment? (cs : List Char) : Option (List Char) :=
  let body := cs.takeWhile fun c => c ≠ '\n' && c ≠ '\r'
  if body.all isText then some (cs.drop body.length) else none

/-- Drops blanks, line breaks and comments. -/
def skipGap : (fuel : Nat) → List Char → Option (List Char)
  | 0, cs => some cs
  | fuel + 1, cs =>
    match skipLines cs with
    | '#' :: rest => do skipGap fuel (← afterComment? rest)
    | rest => some rest

/-- Drops blanks, line breaks and comments. -/
def gap (cs : List Char) : Option (List Char) :=
  skipGap cs.length cs

mutual

/-- Reads one item, which may nest a number of levels. -/
def readItem (levels : Nat) : (fuel : Nat) → List Char → Option (Item × List Char)
  | 0, _ => none
  | _ + 1, [] => none
  | fuel + 1, c :: rest =>
    if c = '"' || c = '\'' then
      (readText (c :: rest)).map fun p => (.text (String.ofList p.1), p.2)
    else if c = '[' then
      match levels with
      | 0 => none
      | levels + 1 => (readItems levels fuel rest).map fun p => (.list p.1, p.2)
    else if c = '\x7b' then
      match levels with
      | 0 => none
      | levels + 1 => (readEntries levels fuel [] rest).map fun p => (.table .inline p.1, p.2)
    else readWord (c :: rest)

/-- Reads the items of a list up to its closing bracket. -/
def readItems (levels : Nat) : (fuel : Nat) → List Char → Option (List Item × List Char)
  | 0, _ => none
  | fuel + 1, cs => do
    match ← gap cs with
    | ']' :: rest => return ([], rest)
    | cs =>
      let (item, rest) ← readItem levels fuel cs
      match ← gap rest with
      | ',' :: rest =>
        let (items, rest) ← readItems levels fuel rest
        return (item :: items, rest)
      | ']' :: rest => return ([item], rest)
      | _ => none

/-- Reads the entries of an inline table up to its closing brace. -/
def readEntries (levels : Nat) : (fuel : Nat) → Rows → List Char → Option (Rows × List Char)
  | 0, _, _ => none
  | fuel + 1, rows, cs => do
    match ← gap cs with
    | '\x7d' :: rest => return (rows, rest)
    | cs =>
      let (keys, item, rest) ← readEntry levels fuel cs
      let (_, rows) ← put keys.dropLast (keys.getLastD "") item .inline rows
      match ← gap rest with
      | ',' :: rest => readEntries levels fuel rows rest
      | '\x7d' :: rest => return (rows, rest)
      | _ => none

/-- Reads a key and its item. -/
def readEntry (levels : Nat) : (fuel : Nat) → List Char → Option (List String × Item × List Char)
  | 0, _ => none
  | fuel + 1, cs => do
    let (keys, rest) ← readKey (cs.length + 1) cs
    match rest with
    | '=' :: rest =>
      let (item, rest) ← readItem levels fuel (rest.dropWhile isBlank)
      return (keys, item, rest)
    | _ => none

end

/-- How deep lists and inline tables may nest. -/
def levels : Nat := 80

/-- Reads the keys of a header up to its closing brackets. -/
def readHeader (closing cs : List Char) : Option (List String × List Char) := do
  let (keys, rest) ← readKey (cs.length + 1) cs
  let rest ← Text.afterStart? closing rest
  return (keys, rest)

/-- Reads one line that is not empty, in the table at a path. Gives the path and the rows after
it. -/
def readStatement (path : List String) (rows : Rows) (cs : List Char) :
    Option (List String × Rows × List Char) :=
  match cs with
  | '[' :: '[' :: rest => do
    let (keys, rest) ← readHeader [']', ']'] rest
    let rows ← openElement keys.dropLast (keys.getLastD "") rows
    return (keys, rows, rest)
  | '[' :: rest => do
    let (keys, rest) ← readHeader [']'] rest
    let rows ← openTable keys.dropLast (keys.getLastD "") rows
    return (keys, rows, rest)
  | _ => do
    let (keys, item, rest) ← readEntry levels (cs.length + 1) cs
    let (_, rows) ← alter .implied (put keys.dropLast (keys.getLastD "") item) path .header rows
    return (path, rows, rest)

/-- Drops what may stand at the end of a line, and the line break itself. -/
def afterLine? (cs : List Char) : Option (List Char) := do
  let rest ← match cs.dropWhile isBlank with
    | '#' :: rest => afterComment? rest
    | rest => some rest
  if rest.isEmpty then some [] else afterBreak? rest

/-- Reads the lines of a document. -/
def readDocument : (fuel : Nat) → List String → Rows → List Char → Option Rows
  | 0, _, _, _ => none
  | fuel + 1, path, rows, cs => do
    let cs ← gap cs
    if cs.isEmpty then return rows
    let (path, rows, rest) ← readStatement path rows cs
    readDocument fuel path rows (← afterLine? rest)

def rows? (s : String) : Option Rows :=
  let cs := match s.toList with
    | '\uFEFF' :: rest => rest
    | cs => cs
  readDocument (cs.length + 1) [] [] cs

end Chartkeeper.Toml
