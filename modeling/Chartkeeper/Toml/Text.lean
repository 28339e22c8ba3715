import Chartkeeper.Text.Hex
/-!
# Written TOML texts

How a text is written: in double quotes if it holds nothing that needs an escape there, else as
it stands in single quotes, else over several lines in either kind of quotes, and with escapes
when nothing else holds it.
-/

namespace Chartkeeper.Toml.Written

/-- The length of the longest run of a character. -/
def longestRun (c : Char) (cs : List Char) : Nat :=
  (cs.foldl (fun (best, run) x => if x = c then (max best (run + 1), run + 1) else (best, 0))
    (0, 0)).1

/-- A control character that no quotes hold as itself. -/
def isControl (c : Char) : Bool :=
  (c.toNat ≤ 0x1F && c ≠ '\t' && c ≠ '\n') || c.toNat = 0x7F

/-- Four digits of base sixteen, in upper case. -/
def fourDigits (n : Nat) : List Char :=
  [n / 4096 % 16, n / 256 % 16, n / 16 % 16, n % 16].map fun d => (Text.hexDigit d).toUpper

/-- How a character other than a double quote stands in double quotes. -/
def escape (severalLines : Bool) (c : Char) : List Char :=
  if c.toNat = 0x08 then ['\\', 'b']
  else if c = '\t' then ['\\', 't']
  else if c = '\n' then if severalLines then ['\n'] else ['\\', 'n']
  else if c.toNat = 0x0C then ['\\', 'f']
  else if c = '\r' then ['\\', 'r']
  else if c = '\\' then ['\\', '\\']
  else if isControl c then '\\' :: 'u' :: fourDigits c.toNat
  else [c]

/-- A text in double quotes, without the quotes around it. Of the quotes in it, a run of as many
as `allowed` stands as it is. -/
def escaped (severalLines : Bool) (allowed : Nat) : (run : Nat) → List Char → List Char
  | _, [] => []
  | run, c :: rest =>
    if c = '"' then
      if run < allowed then c :: escaped severalLines allowed (run + 1) rest
      else '\\' :: '"' :: escaped severalLines allowed 0 rest
    else escape severalLines c ++ escaped severalLines allowed 0 rest

/-- A text on one line in double quotes. -/
def basic (cs : List Char) : List Char :=
  '"' :: (escaped false 0 0 cs ++ ['"'])

/-- The line break after the opening quotes of a text of several lines. -/
def opening (cs : List Char) : List Char :=
  if cs.contains '\n' then ['\n'] else []

/-- A text of several lines in double quotes. -/
def basicLines (cs : List Char) : List Char :=
  "\"\"\"".toList ++ opening cs ++ escaped true 2 0 cs ++ "\"\"\"".toList

/-- A text on one line as it stands. -/
def verbatim (cs : List Char) : List Char :=
  '\'' :: (cs ++ ['\''])

/-- A text of several lines as it stands. -/
def verbatimLines (cs : List Char) : List Char :=
  "'''".toList ++ opening cs ++ cs ++ "'''".toList

/-- The written form of a text. -/
def text (s : String) : String :=
  let cs := s.toList
  let controls := cs.any isControl
  let backslashes := cs.contains '\\'
  let lines := cs.contains '\n'
  let doubles := longestRun '"' cs
  let singles := longestRun '\'' cs
  String.ofList <|
    -- the first way in which nothing has to be escaped, if there is one
    if !controls && !backslashes && doubles = 0 && !lines then basic cs
    else if !controls && singles = 0 && !lines then verbatim cs
    else if !controls && !backslashes && doubles ≤ 2 then basicLines cs
    else if !controls && singles ≤ 2 then verbatimLines cs
    else if lines then basicLines cs
    else basic cs

end Chartkeeper.Toml.Written
