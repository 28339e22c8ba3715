import Mathlib.Data.List.Basic
import Chartkeeper.Manifest.Decode
import Chartkeeper.Proofs.Fault
import Chartkeeper.Text.Hex
/-!
# The digest of a manifest

Decoding hashes a manifest piece by piece, as it is read, and a comparison of digests hashes it at
once. The hash is a fold over bytes, so all that matters of the pieces is what they are together:
both ways give the FNV-1 hash of the bytes of the whole manifest, written in base sixteen, or
nothing for a blank manifest.
-/

namespace Chartkeeper

/-! ## Base sixteen -/

namespace Text

/-- The number that digits of base sixteen stand for. -/
def readHex? (cs : List Char) : Option Nat :=
  cs.foldlM (fun n c => (hexValue? c).map (16 * n + ·)) 0

/-- Digits of base sixteen that stand for a number: in lower case, and without padding. -/
structure Hex (n : Nat) (cs : List Char) : Prop where
  lower : ∀ c ∈ cs, c ∈ "0123456789abcdef".toList
  unpadded : cs.head? = some '0' → cs = ['0']
  value : readHex? cs = some n
  nonempty : cs ≠ []

theorem readHex?_append (cs : List Char) (c : Char) :
    readHex? (cs ++ [c]) = (readHex? cs).bind fun n => (hexValue? c).map (16 * n + ·) := by
  unfold readHex?
  rw [List.foldlM_append]
  simp

theorem digitChar_hex {d : Nat} (h : d < 16) :
    d.digitChar ∈ "0123456789abcdef".toList ∧ hexValue? d.digitChar = some d ∧
      (d.digitChar = '0' → d = 0) := by
  have hall : ∀ d < 16, d.digitChar ∈ "0123456789abcdef".toList ∧
      hexValue? d.digitChar = some d ∧ (d.digitChar = '0' → d = 0) := by decide
  exact hall d h

theorem hex_digit {d : Nat} (h : d < 16) : Hex d [d.digitChar] := by
  obtain ⟨hlower, hvalue, hzero⟩ := digitChar_hex h
  constructor
  · simpa using hlower
  · intro hhead
    simpa using hhead
  · show ((hexValue? d.digitChar).map (16 * 0 + ·)).bind some = some d
    rw [hvalue]
    simp
  · simp

/-- One more digit at the end. The number in front is not zero, so nothing is padded. -/
theorem Hex.snoc {n d : Nat} {cs : List Char} (h : Hex n cs) (hn : n ≠ 0) (hd : d < 16) :
    Hex (16 * n + d) (cs ++ [d.digitChar]) := by
  obtain ⟨hlower, hvalue, -⟩ := digitChar_hex hd
  constructor
  · intro c hc
    rcases List.mem_append.mp hc with hc | hc
    · exact h.lower c hc
    · rw [List.mem_singleton.mp hc]
      exact hlower
  · intro hhead
    rw [List.head?_append_of_ne_nil _ h.nonempty] at hhead
    have hzero := h.value
    rw [h.unpadded hhead] at hzero
    exact absurd (Option.some.inj hzero).symm hn
  · rw [readHex?_append, h.value]
    simp [hvalue]
  · simp

theorem hex_toDigits (n : Nat) : Hex n (Nat.toDigits 16 n) := by
  induction n using Nat.strongRecOn with
  | ind n ih =>
    -- All digits but the last are those of `n / 16`.
    by_cases hsmall : n < 16
    · rw [Nat.toDigits_of_lt_base hsmall]
      exact hex_digit hsmall
    · have hfront := ih (n / 16) (by omega)
      have hsnoc := hfront.snoc (d := n % 16) (by omega) (by omega)
      rw [Nat.div_add_mod] at hsnoc
      rw [Nat.toDigits_of_base_le (by decide) (by omega)]
      exact hsnoc

end Text

/-! ## Hashing in pieces -/

/-- The 64-bit FNV-1 hash in the arithmetic of numbers: for each byte, multiply and then combine. -/
def fnv1 (bytes : List UInt8) : Nat :=
  bytes.foldl (fun h byte => (h * 1099511628211 % UInt64.size) ^^^ byte.toNat) 14695981039346656037

namespace Digest

variable {d : Digest}

theorem update_append (d : Digest) (xs ys : List UInt8) :
    d.update (xs ++ ys) = (d.update xs).update ys :=
  List.foldl_append

/-- Pieces that are hashed one after the other are hashed as a whole. -/
theorem foldl_update (d : Digest) (pieces : List (List UInt8)) :
    pieces.foldl update d = d.update pieces.flatten := by
  induction pieces generalizing d with
  | nil => rfl
  | cons piece rest ih =>
    rw [List.flatten_cons, update_append, ← ih]
    rfl

theorem toNat_step (d : Digest) (byte : UInt8) :
    (d.step byte).state.toNat = (d.state.toNat * 1099511628211 % UInt64.size) ^^^ byte.toNat := by
  unfold step
  rw [UInt64.toNat_xor, UInt64.toNat_mul, UInt8.toNat_toUInt64]
  rfl

theorem toNat_update (d : Digest) (bytes : List UInt8) :
    (d.update bytes).state.toNat =
      bytes.foldl (fun h byte => (h * 1099511628211 % UInt64.size) ^^^ byte.toNat) d.state.toNat := by
  induction bytes generalizing d with
  | nil => rfl
  | cons byte rest ih =>
    rw [List.foldl_cons, ← toNat_step]
    exact ih (d.step byte)

theorem toNat_start (bytes : List UInt8) : (start.update bytes).state.toNat = fnv1 bytes :=
  toNat_update start bytes

theorem bytes_eq (s : String) : bytes s = s.toByteArray.data.toList := by
  rw [← String.utf8Encode_toList]
  simp [List.utf8Encode, bytes]

theorem hex_text (d : Digest) : Text.Hex d.state.toNat d.text.toList := by
  unfold text
  rw [String.toList_ofList]
  exact Text.hex_toDigits _

theorem text_ne_empty (d : Digest) : d.text ≠ "" := by
  intro h
  have hnonempty := (hex_text d).nonempty
  rw [h] at hnonempty
  exact hnonempty rfl

theorem ofManifest_of_blank {manifest : String} (h : Text.blank manifest = true) :
    ofManifest manifest = "" :=
  if_pos h

theorem ofManifest_of_not_blank {manifest : String} (h : Text.blank manifest = false) :
    ofManifest manifest = (start.update manifest.toByteArray.data.toList).text := by
  unfold ofManifest updateText
  rw [if_neg (by simp [h]), bytes_eq]

/-- Only a blank manifest has no digest. -/
theorem ofManifest_eq_empty {manifest : String} :
    ofManifest manifest = "" ↔ Text.blank manifest = true := by
  constructor
  · intro hempty
    by_contra hblank
    rw [ofManifest_of_not_blank (Bool.eq_false_iff.mpr hblank)] at hempty
    exact text_ne_empty _ hempty
  · exact ofManifest_of_blank

end Digest

/-! ## Decoding -/

namespace Manifest

variable {α : Type} {shape : Shape α} {manifest digest : String} {found : List α}
  {reads : List (List UInt8)}

/-- A manifest that was decoded from its bytes, in whatever reads they came, has the digest that
hashing it at once gives. -/
theorem digest_of_reads
    (hreads : Text.blank manifest = false → reads.flatten = manifest.toByteArray.data.toList)
    (h : decodeReads shape manifest reads = .ok (found, digest)) :
    digest = Digest.ofManifest manifest := by
  unfold decodeReads at h
  cases hblank : Text.blank manifest with
  | true =>
    rw [if_pos hblank] at h
    rw [Digest.ofManifest_of_blank hblank]
    exact (congrArg Prod.snd (Except.ok.inj h)).symm
  | false =>
    rw [if_neg (by simp [hblank])] at h
    rw [Digest.ofManifest_of_not_blank hblank, ← hreads hblank, ← Digest.foldl_update]
    cases hfound : (Yaml.Document.ofText? manifest).bind (objects? shape) with
    | none =>
      rw [hfound] at h
      exact nomatch h
    | some objects =>
      rw [hfound] at h
      exact (congrArg Prod.snd (Except.ok.inj h)).symm

theorem digest_of_decode (h : decode shape manifest = .ok (found, digest)) :
    digest = Digest.ofManifest manifest := by
  refine digest_of_reads (fun _ => ?_) h
  simp [Digest.bytes_eq]

/-- **The digest of a manifest that was decoded.** It is the digest of hashing the text at once.
It is empty for white space only, and otherwise the FNV-1 hash of all bytes of the manifest, those
of documents that were passed over included. -/
theorem digest_of_decodeReads
    (hreads : Text.blank manifest = false → reads.flatten = manifest.toByteArray.data.toList)
    (h : decodeReads shape manifest reads = .ok (found, digest)) :
    digest = Digest.ofManifest manifest ∧
      (digest = "" ↔ ∀ c ∈ manifest.toList, Text.isBlank c = true) ∧
      ((¬∀ c ∈ manifest.toList, Text.isBlank c = true) →
        Text.Hex (fnv1 manifest.toByteArray.data.toList) digest.toList) := by
  obtain rfl := digest_of_reads hreads h
  have hblank : Text.blank manifest = true ↔ ∀ c ∈ manifest.toList, Text.isBlank c = true :=
    List.all_eq_true
  refine ⟨rfl, Digest.ofManifest_eq_empty.trans hblank, fun hvisible => ?_⟩
  have hnot : Text.blank manifest = false := Bool.eq_false_iff.mpr (mt hblank.mp hvisible)
  rw [Digest.ofManifest_of_not_blank hnot, ← Digest.toNat_start]
  exact Digest.hex_text _

/-- A manifest one of whose documents is passed over. -/
def skipping : String :=
  "# first\n---\nkind: Orphan\n---\napiVersion: v1\nkind: Secret\nmetadata:\n  name: é\n"

/-- Its bytes in three reads, one of which gives nothing. -/
def skippingReads : List (List UInt8) :=
  [(Digest.bytes skipping).take 20, [], (Digest.bytes skipping).drop 20]

theorem digest_of_decodeReads_skipping :
    ∃ found, decodeReads .outline skipping skippingReads = .ok (found, "581cf7cfc58a4a13") ∧
      found.length = 1 ∧ Digest.ofManifest skipping = "581cf7cfc58a4a13" ∧
      Text.Hex (fnv1 skipping.toByteArray.data.toList) "581cf7cfc58a4a13".toList := by
  have hreads : skippingReads.flatten = skipping.toByteArray.data.toList := by
    rw [← Digest.bytes_eq]
    decide +kernel
  have hdecode : (decodeReads .outline skipping skippingReads).toOption.map
      (fun p => (p.1.length, p.2)) = some (1, "581cf7cfc58a4a13") := by decide +kernel
  obtain ⟨⟨found, digest⟩, hfound, hgiven⟩ := Option.map_eq_some_iff.mp hdecode
  obtain ⟨hlength, rfl⟩ := Prod.mk.inj hgiven
  replace hfound := Fault.eq_ok_of_toOption hfound
  obtain ⟨hdigest, -, hhex⟩ := digest_of_decodeReads (fun _ => hreads) hfound
  refine ⟨found, hfound, hlength, hdigest.symm, hhex fun hblank => ?_⟩
  have hvisible : Text.blank skipping = false := by decide +kernel
  exact Bool.eq_false_iff.mp hvisible (List.all_eq_true.mpr hblank)

end Manifest

end Chartkeeper
