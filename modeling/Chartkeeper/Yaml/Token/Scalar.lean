import Chartkeeper.Text.Hex
import Chartkeeper.Yaml.Cursor
/-!
# Scalars in a YAML text

Reads a scalar at a cursor, in each of the five ways of writing one. Runs of characters are
joined by the gaps between them: blanks within a line stay, a single line break becomes a
space, and of several the first is dropped.
-/

namespace Chartkeeper.Yaml

/-- How a scalar is written. -/
inductive Style where
  | plain
  | singleQuoted
  | doubleQuoted
  | literal
  | folded
  deriving DecidableEq, Repr

/-! ## Gaps -/

/-- What stands between two runs of characters: blanks within a line, or the first line break
and those after it. -/
inductive Gap where
  | blanks (cs : List Char)
  | breaks (first more : List Char)

/-- What a gap contributes to the scalar. -/
def Gap.text : Gap → List Char
  | .blanks cs => cs
  | .breaks first more =>
    if first = ['\n'] then (if more.isEmpty then [' '] else more) else first ++ more

/-- Whether a gap goes over a line. -/
def Gap.isBreak : Gap → Bool
  | .blanks _ => false
  | .breaks .. => true

/-- Reads on in a gap. A tab left of column `indent` on a later line is refused. -/
def readGap (indent : Int) : (fuel : Nat) → Gap → Cursor → Option (Gap × Cursor)
  | 0, gap, c => some (gap, c)
  | fuel + 1, gap, c =>
    match c.peek with
    | none => some (gap, c)
    | some x =>
      if isBlank x then
        match gap with
        | .blanks cs => readGap indent fuel (.blanks (cs ++ [x])) c.skip
        | .breaks .. =>
          -- blanks around line breaks are no part of the scalar
          if x = '\t' && (c.column : Int) < indent then none else readGap indent fuel gap c.skip
      else if isBreak x then
        let (line, c) := c.readLine
        match gap with
        | .blanks _ => readGap indent fuel (.breaks line []) c
        | .breaks first more => readGap indent fuel (.breaks first (more ++ line)) c
      else some (gap, c)

/-! ## Plain scalars -/

/-- The characters that end a plain scalar inside brackets. -/
def isFlowIndicator (c : Char) : Bool :=
  c = ',' || c = '[' || c = ']' || c = '\x7b' || c = '\x7d'

/-- Reads a run of a plain scalar, up to a blank or an indicator that ends it. -/
def readPlainRun (inFlow : Bool) : (fuel : Nat) → Cursor → Option (List Char × Cursor)
  | 0, c => some ([], c)
  | fuel + 1, c =>
    match c.peek with
    | none => some ([], c)
    | some x =>
      if isBlank x || isBreak x then some ([], c)
      -- a colon right before an indicator is neither text nor the mark of a value
      else if inFlow && x = ':'
          && (c.ahead 1).any (fun y => isFlowIndicator y || y = '?') then none
      else if (x = ':' && c.spaceAt 1) || (inFlow && isFlowIndicator x) then some ([], c)
      else (readPlainRun inFlow fuel c.skip).map fun p => (x :: p.1, p.2)

/-- Reads a plain scalar on from a gap. Also says whether the last gap went over a line and
nothing came after it. -/
def readPlainFrom (inFlow : Bool) (indent : Int) :
    (fuel : Nat) → Gap → Cursor → Option (List Char × Bool × Cursor)
  | 0, gap, c => some ([], gap.isBreak, c)
  | fuel + 1, gap, c =>
    if c.atAnyDocumentMark || c.sees '#' then some ([], gap.isBreak, c)
    else do
      let (run, c) ← readPlainRun inFlow (c.rest.length + 1) c
      -- a gap is written only once something comes after it
      let (text, gap) := if run.isEmpty then ([], gap) else (gap.text ++ run, .blanks [])
      if !(c.atBlank || c.atBreak) then return (text, gap.isBreak, c)
      let (gap, c) ← readGap indent (c.rest.length + 1) gap c
      if !inFlow && (c.column : Int) < indent then return (text, gap.isBreak, c)
      let (more, overLine, c) ← readPlainFrom inFlow indent fuel gap c
      return (text ++ more, overLine, c)

/-- Reads a plain scalar whose lines stand at column `indent` or further right. -/
def readPlain (inFlow : Bool) (indent : Int) (c : Cursor) : Option (List Char × Bool × Cursor) :=
  readPlainFrom inFlow indent (c.rest.length + 1) (.blanks []) c

/-! ## Quoted scalars -/

/-- The character of a one-letter escape. -/
def escapes : List (Char × Char) :=
  [('0', Char.ofNat 0), ('a', Char.ofNat 7), ('b', Char.ofNat 8), ('t', '\t'), ('\t', '\t'),
    ('n', '\n'), ('v', Char.ofNat 0x0B), ('f', Char.ofNat 0x0C), ('r', '\r'),
    ('e', Char.ofNat 0x1B), (' ', ' '), ('"', '"'), ('/', '/'), ('\\', '\\'),
    ('N', Char.ofNat 0x85), ('_', Char.ofNat 0xA0), ('L', Char.ofNat 0x2028),
    ('P', Char.ofNat 0x2029)]

/-- The number of digits after an escape by code point. -/
def escapeWidths : List (Char × Nat) :=
  [('x', 2), ('u', 4), ('U', 8)]

/-- Reads the digits of an escape by code point. Surrogates are no characters. -/
def readCodePoint (width : Nat) (c : Cursor) : Option (Char × Cursor) := do
  let ds ← (c.rest.take width).mapM Text.hexValue?
  if ds.length < width then none
  let n := ds.foldl (fun n d => 16 * n + d) 0
  if (0xD800 ≤ n && n ≤ 0xDFFF) || 0x10FFFF < n then none
  return (Char.ofNat n, c.skipN width)

/-- Reads a run of a quoted scalar, up to a blank, a line break or the closing quote. Also says
whether the run ended in an escaped line break. -/
def readQuotedRun (single : Bool) :
    (fuel : Nat) → Cursor → Option (List Char × Bool × Cursor)
  | 0, c => some ([], false, c)
  | fuel + 1, c =>
    match c.peek with
    | none => some ([], false, c)
    | some x =>
      let next (y : Char) (c : Cursor) :=
        (readQuotedRun single fuel c).map fun p => (y :: p.1, p.2)
      if isBlank x || isBreak x then some ([], false, c)
      else if single && x = '\'' then
        if c.ahead 1 = some '\'' then next '\'' (c.skipN 2) else some ([], false, c)
      else if !single && x = '"' then some ([], false, c)
      else if !single && x = '\\' then
        match c.ahead 1 with
        | none => none
        | some e =>
          -- an escaped break joins the lines without a space
          if isBreak e then some ([], true, c.skip.skipLine)
          else
            match escapes.lookup e, escapeWidths.lookup e with
            | some y, _ => next y (c.skipN 2)
            | none, some width => (readCodePoint width (c.skipN 2)).bind fun p => next p.1 p.2
            | none, none => none
      else next x c.skip

/-- Reads a quoted scalar after its opening quote. -/
def readQuotedFrom (single : Bool) : (fuel : Nat) → Cursor → Option (List Char × Cursor)
  | 0, _ => none
  | fuel + 1, c =>
    if c.atAnyDocumentMark || c.atEnd then none
    else do
      let (run, escaped, c) ← readQuotedRun single (c.rest.length + 1) c
      if c.sees (if single then '\'' else '"') then return (run, c.skip)
      let gap := if escaped then Gap.breaks [] [] else Gap.blanks []
      let (gap, c) ← readGap 0 (c.rest.length + 1) gap c
      let (more, c) ← readQuotedFrom single fuel c
      return (run ++ gap.text ++ more, c)

def readQuoted (single : Bool) (c : Cursor) : Option (List Char × Cursor) :=
  readQuotedFrom single (c.rest.length + 1) c.skip

/-! ## Block scalars -/

/-- What becomes of the line breaks at the end of a block scalar. -/
inductive Chomping where
  | clip
  | strip
  | keep
  deriving DecidableEq, Repr

/-- Passes blank lines and the indentation of the next line: up to column `indent`, or all of
it when that is still zero. Gives the line breaks and the furthest column reached. -/
def readBlockBreaks (indent : Nat) :
    (fuel : Nat) → (breaks : List Char) → (reached : Nat) → Cursor →
      Option (List Char × Nat × Cursor)
  | 0, breaks, reached, c => some (breaks, reached, c)
  | fuel + 1, breaks, reached, c =>
    let spaces := (c.rest.takeWhile (· = ' ')).length
    let c := c.skipN (if indent = 0 then spaces else min spaces (indent - c.column))
    let reached := max reached c.column
    if (indent = 0 || c.column < indent) && c.sees '\t' then none
    else if c.atBreak then
      let (line, c) := c.readLine
      readBlockBreaks indent fuel (breaks ++ line) reached c
    else some (breaks, reached, c)

/-- Reads the lines of a block scalar. `lead` is the break after the line before, `more` are
the breaks after it, and `indented` says whether that line starts with a blank. Gives the text
and the breaks that come after it. -/
def readBlockLines (folded : Bool) (indent : Nat) :
    (fuel : Nat) → (lead more : List Char) → (indented : Bool) → Cursor →
      Option (List Char × List Char × List Char × Cursor)
  | 0, lead, more, _, c => some ([], lead, more, c)
  | fuel + 1, lead, more, indented, c =>
    if c.column ≠ indent || c.atEnd then some ([], lead, more, c)
    else do
      let blank := c.atBlank
      let joint :=
        if folded && lead = ['\n'] && !indented && !blank then
          if more.isEmpty then [' '] else more
        else lead ++ more
      let (line, c) := c.readWhile fun x => !isBreak x
      let (lead, c) := c.readLine
      let (more, _, c) ← readBlockBreaks indent (c.rest.length + 1) [] 0 c
      let (text, lead, more, c) ← readBlockLines folded indent fuel lead more blank c
      return (joint ++ line ++ text, lead, more, c)

/-- Reads the chomping and indentation indicators of a block scalar, in either order. -/
def readBlockHeader (c : Cursor) : Option (Chomping × Nat × Cursor) :=
  let chomping (c : Cursor) : Chomping × Cursor :=
    if c.sees '+' then (.keep, c.skip) else if c.sees '-' then (.strip, c.skip) else (.clip, c)
  let indentation (c : Cursor) : Option (Nat × Cursor) :=
    match c.peek with
    | some x =>
      if x = '0' then none
      else if x.isDigit then some (x.toNat - '0'.toNat, c.skip)
      else some (0, c)
    | none => some (0, c)
  if c.sees '+' || c.sees '-' then do
    let (mode, c) := chomping c
    let (increment, c) ← indentation c
    return (mode, increment, c)
  else do
    let (increment, c) ← indentation c
    let (mode, c) := if increment = 0 then (.clip, c) else chomping c
    return (mode, increment, c)

/-- Reads a block scalar inside a collection whose entries stand at column `parent`, which is
`-1` outside any. -/
def readBlock (folded : Bool) (parent : Int) (c : Cursor) : Option (List Char × Cursor) := do
  let (mode, increment, c) ← readBlockHeader c.skip
  let c := c.skipComment
  if !c.atLineEnd then none
  let c := c.skipLine
  let given : Nat := if increment = 0 then 0 else ((max parent 0) + increment).toNat
  let (more, reached, c) ← readBlockBreaks given (c.rest.length + 1) [] 0 c
  -- without an indicator, the furthest column up to the first line of text counts
  let indent := if given = 0 then max (max reached (parent + 1).toNat) 1 else given
  let (text, lead, more, c) ←
    readBlockLines folded indent (c.rest.length + 1) [] more false c
  let tail := match mode with
    | .strip => []
    | .clip => lead
    | .keep => lead ++ more
  return (text ++ tail, c)

end Chartkeeper.Yaml
