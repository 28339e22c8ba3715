import Chartkeeper.Digest
import Chartkeeper.Fault
import Chartkeeper.Yaml.Node.Decode
import Chartkeeper.Yaml.Node.Reader
/-!
# Decoding manifests

A manifest is a stream of documents, each of which describes an object. Decoding gives the
objects that name their API version, in order, and the digest of the text as it was read;
documents that hold nothing, or no API version, are passed over. A blank manifest is not read
at all: it has no objects, and its digest is empty.
-/

namespace Chartkeeper.Manifest

/-- A form in which the objects of a manifest are wanted. -/
structure Shape (α : Type) where
  decode? : Yaml.Document → Option (Option α)
  apiVersion : α → String

def Shape.outline : Shape Outline := ⟨Yaml.Document.outline?, Outline.apiVersion⟩

def Shape.free : Shape FreeObject := ⟨Yaml.Document.freeObject?, FreeObject.apiVersion⟩

/-- The objects of a stream of documents. -/
def objects? {α : Type} (shape : Shape α) (documents : List Yaml.Document) : Option (List α) :=
  (documents.mapM shape.decode?).map fun found =>
    (found.filterMap id).filter fun o => !(shape.apiVersion o).isEmpty

/-- The objects of a manifest and the digest of the bytes that were read. The bytes of the text
come in some reads, and each read is hashed as it comes. -/
def decodeReads {α : Type} (shape : Shape α) (manifest : String) (reads : List (List UInt8)) :
    Except DigestFault (List α × String) :=
  if Text.blank manifest then .ok ([], "")
  else
    match (Yaml.Document.ofText? manifest).bind (objects? shape) with
    | some found => .ok (found, (reads.foldl Digest.update Digest.start).text)
    | none => .error (.decode "not a stream of objects")

/-- Decodes a manifest that is read at once. -/
def decode {α : Type} (shape : Shape α) (manifest : String) :
    Except DigestFault (List α × String) :=
  decodeReads shape manifest [Digest.bytes manifest]

end Chartkeeper.Manifest
