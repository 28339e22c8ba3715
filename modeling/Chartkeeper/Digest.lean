import Chartkeeper.Fault
import Chartkeeper.Json.Text
import Chartkeeper.Text.Blank
/-!
# Digests

The 64-bit FNV-1 hash of a byte sequence. It is a fold, so hashing a sequence in pieces gives
the hash of the whole. The digest of a manifest is the hash of its bytes in lower-case base
sixteen without padding, and empty for a manifest that is blank.
-/

namespace Chartkeeper

/-- A running hash. -/
structure Digest where
  state : UInt64
  deriving DecidableEq, Repr, Inhabited

namespace Digest

/-- The hash of no bytes. -/
def start : Digest := ⟨0xcbf29ce484222325⟩

/-- The factor of each step. -/
def prime : UInt64 := 0x00000100000001b3

/-- Takes one byte: multiply, then combine. -/
def step (d : Digest) (byte : UInt8) : Digest :=
  ⟨d.state * prime ^^^ byte.toUInt64⟩

/-- Takes a sequence of bytes. -/
def update (d : Digest) (bytes : List UInt8) : Digest :=
  bytes.foldl step d

/-- The bytes of a text in UTF-8. -/
def bytes (s : String) : List UInt8 :=
  s.toList.flatMap String.utf8EncodeChar

def updateText (d : Digest) (s : String) : Digest :=
  d.update (bytes s)

/-- Takes a sequence of texts, one after the other. -/
def updateTexts (d : Digest) (texts : List String) : Digest :=
  texts.foldl updateText d

/-- A value that is offered for hashing: a JSON value, or a mapping from byte lists. -/
inductive Offer where
  | json (v : Json)
  | keyed (rows : List (List UInt8 × Int))

/-- The text that is hashed for a value. A mapping from byte lists has one only when it is
empty. -/
def Offer.text : Offer → Except DigestFault String
  | .json v => .ok v.text
  | .keyed [] => .ok (Json.text (.obj []))
  | .keyed (_ :: _) => .error (.serialization "key must be a string")

/-- Takes the values in order up to the first that cannot be hashed. -/
def updateOffers (d : Digest) : List Offer → Digest × Except DigestFault Unit
  | [] => (d, .ok ())
  | offer :: rest =>
    match offer.text with
    | .ok s => (d.updateText s).updateOffers rest
    | .error fault => (d, .error fault)

/-- The hash in lower-case base sixteen, without padding. -/
def text (d : Digest) : String :=
  String.ofList (Nat.toDigits 16 d.state.toNat)

/-- The digest of a manifest: empty when the manifest is blank. -/
def ofManifest (manifest : String) : String :=
  if Text.blank manifest then "" else (start.updateText manifest).text

end Digest

end Chartkeeper
