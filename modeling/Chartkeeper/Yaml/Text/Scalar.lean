import Chartkeeper.Yaml.Plain
import Chartkeeper.Yaml.Token.Scalar
/-!
# Written scalars

How a text is written in block style. A text that reads back as itself stands plain; one that
would read back as another value, or that a plain scalar cannot hold, is quoted, and a text of
several lines is a literal block. Each style can hold only some texts, so the choice falls back
from the style that is wanted to one that holds the text; double quotes hold every text.
-/

namespace Chartkeeper.Yaml.Written

/-! ## What a style can hold -/

/-- A character that stands for itself outside double quotes. -/
def isWritable (c : Char) : Bool :=
  isAllowed c && c ≠ '\t' && c ≠ '\r' && c.toNat ≠ 0x85 && c.toNat ≠ 0xFEFF

/-- Whether two neighbours of these classes occur. -/
def hasNeighbours (left right : Char → Bool) (cs : List Char) : Bool :=
  (cs.zip cs.tail).any fun p => left p.1 && right p.2

def isSpace (c : Char) : Bool := c = ' '

/-- The characters that no plain scalar starts with. -/
def startMarks : List Char :=
  ['#', ',', '[', ']', '\x7b', '\x7d', '&', '*', '!', '|', '>', '\'', '"', '%', '@', '\x60']

/-- Whether the start of a text would be read as a mark. -/
def startsAsMark : List Char → Bool
  | [] => false
  | c :: rest =>
    startMarks.contains c
      || ((c = '-' || c = '?') && rest.head?.all isSpace)
      || ["---".toList, "...".toList].contains ((c :: rest).take 3)

/-- Whether a text holds what ends a plain scalar: a colon before a space or at the end, or a
hash after a space. -/
def endsEarly (cs : List Char) : Bool :=
  hasNeighbours (· = ':') isSpace cs || cs.getLast? = some ':' || hasNeighbours isSpace (· = '#') cs

/-- Whether a plain scalar holds a text. -/
def fitsPlain (cs : List Char) : Bool :=
  cs.all (fun c => isWritable c && !isBreak c)
    && cs.head?.all (!isSpace ·) && cs.getLast?.all (!isSpace ·)
    && !startsAsMark cs && !endsEarly cs

/-- Whether single quotes hold a text: no space stands next to a line break. -/
def fitsSingle (cs : List Char) : Bool :=
  cs.all isWritable && !hasNeighbours isBreak isSpace cs && !hasNeighbours isSpace isBreak cs

/-- Whether a literal block holds a text: no line ends with a space. -/
def fitsLiteral (cs : List Char) : Bool :=
  cs.all isWritable && !hasNeighbours isSpace isBreak cs && cs.getLast?.all (!isSpace ·)

/-! ## The choice of a style -/

/-- Whether a plain scalar of this text would be read as something else than a text, or looks
like a number with a leading zero. -/
def readsAsOther (s : String) : Bool :=
  match Plain.value s with
  | .text => Plain.hasLeadingZero s.toList
  | _ => true

/-- The style in which a text is written. -/
def styleOf (s : String) : Style :=
  let cs := s.toList
  if cs.contains '\n' then if fitsLiteral cs then .literal else .doubleQuoted
  else if !readsAsOther s && fitsPlain cs then .plain
  else if fitsSingle cs then .singleQuoted
  else .doubleQuoted

/-! ## The styles -/

/-- Blanks up to a column. -/
def pad (column : Nat) : List Char :=
  List.replicate column ' '

/-- The lines of a scalar that goes over several: after each run of line breaks the text goes on
at a column. Says whether it ended with a line break. -/
def lines (column : Nat) (write : Char → List Char) :
    (broken : Bool) → List Char → List Char × Bool
  | broken, [] => ([], broken)
  | broken, c :: rest =>
    if isBreak c then
      let (tail, broken) := lines column write true rest
      (c :: tail, broken)
    else
      let (tail, endsBroken) := lines column write false rest
      ((if broken then pad column else []) ++ write c ++ tail, endsBroken)

/-- A text in single quotes. -/
def singleQuoted (column : Nat) (cs : List Char) : List Char :=
  let (body, broken) := lines column (fun c => if c = '\'' then ['\'', '\''] else [c]) false cs
  '\'' :: (body ++ (if broken then pad column else []) ++ ['\''])

/-- A digit of base sixteen, in upper case. -/
def upperHex (n : Nat) : Char :=
  (Text.hexDigit (n % 16)).toUpper

/-- The last digits of a number in base sixteen. -/
def hexDigits : (width n : Nat) → List Char
  | 0, _ => []
  | width + 1, n => hexDigits width (n / 16) ++ [upperHex n]

/-- The letters that name characters after a backslash. -/
def namedEscapes : List (Nat × Char) :=
  [(0x00, '0'), (0x07, 'a'), (0x08, 'b'), (0x09, 't'), (0x0A, 'n'), (0x0B, 'v'), (0x0C, 'f'),
    (0x0D, 'r'), (0x1B, 'e'), (0x22, '"'), (0x5C, '\\'), (0x85, 'N'), (0xA0, '_'),
    (0x2028, 'L'), (0x2029, 'P')]

/-- How a character stands in double quotes. -/
def escape (c : Char) : List Char :=
  if isWritable c && !isBreak c && c ≠ '"' && c ≠ '\\' then [c]
  else
    match namedEscapes.lookup c.toNat with
    | some name => ['\\', name]
    | none =>
      if c.toNat ≤ 0xFF then '\\' :: 'x' :: hexDigits 2 c.toNat
      else if c.toNat ≤ 0xFFFF then '\\' :: 'u' :: hexDigits 4 c.toNat
      else '\\' :: 'U' :: hexDigits 8 c.toNat

/-- A text in double quotes. -/
def doubleQuoted (cs : List Char) : List Char :=
  '"' :: (cs.flatMap escape ++ ['"'])

/-- The mark of a literal block: the indentation if the text itself starts with white space, and
how many line breaks end it. -/
def literalMark (cs : List Char) : List Char :=
  let indentation := if cs.head?.any fun c => isSpace c || isBreak c then ['2'] else []
  let ending :=
    match cs.reverse with
    | [] => ['-']
    | [c] => if isBreak c then ['+'] else ['-']
    | c :: d :: _ => if isBreak c then (if isBreak d then ['+'] else []) else ['-']
  '|' :: (indentation ++ ending)

/-- A scalar whose lines after the first go on at a column, and whether the last of them is ended
already: a literal block may bring the line break itself. -/
def scalar (column : Nat) (s : String) : List Char × Bool :=
  let cs := s.toList
  match styleOf s with
  | .plain => (cs, false)
  | .singleQuoted => (singleQuoted column cs, false)
  | .doubleQuoted => (doubleQuoted cs, false)
  | .literal | .folded =>
    let (body, broken) := lines column (fun c => [c]) true cs
    (literalMark cs ++ '\n' :: body, broken)

/-- A scalar with the end of its line. -/
def scalarLine (column : Nat) (s : String) : List Char :=
  let (body, broken) := scalar column s
  body ++ (if broken then [] else ['\n'])

end Chartkeeper.Yaml.Written
