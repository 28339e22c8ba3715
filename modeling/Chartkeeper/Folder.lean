import Chartkeeper.Text.Cut
/-!
# Reading files

Why a file has no text, and a folder in memory: its files by their paths. A path leads from the
folder down, part by part; empty parts and single dots stay where they are.
-/

namespace Chartkeeper

/-- Why a file has no text. -/
inductive ReadFault where
  | missing
  | denied
  | notFolder
  | folder
  | notText
  | other (reason : String)
  deriving DecidableEq, Repr

def ReadFault.message : ReadFault → String
  | .missing => "No such file or directory (os error 2)"
  | .denied => "Permission denied (os error 13)"
  | .notFolder => "Not a directory (os error 20)"
  | .folder => "Is a directory (os error 21)"
  | .notText => "stream did not contain valid UTF-8"
  | .other reason => reason

/-- The text in some bytes. -/
def textOfBytes (bytes : ByteArray) : Except ReadFault String :=
  match String.fromUTF8? bytes with
  | some text => .ok text
  | none => .error .notText

/-- A folder: the content of each file by its path. -/
abbrev Folder := List (String × ByteArray)

namespace Folder

/-- The parts of a path that lead somewhere. -/
def parts (path : String) : List String :=
  ((Text.pieces '/' path.toList).map fun part => String.ofList part).filter fun part =>
    part ≠ "" && part ≠ "."

/-- The text of the file that a path leads to. -/
def read (f : Folder) (path : String) : Except ReadFault String :=
  let found := parts path
  match f.find? fun file => parts file.1 = found with
  | some (_, bytes) => if path.endsWith "/" then .error .notFolder else textOfBytes bytes
  | none =>
    if found.isEmpty || f.any fun file => found.isPrefixOf (parts file.1) then .error .folder
    else if f.any fun file => (parts file.1).isPrefixOf found then .error .notFolder
    else .error .missing

end Folder

end Chartkeeper
