import Chartkeeper.Proofs.Manifest.Digest
/-!
# Small edits of a manifest

A step of the hash multiplies the state by an odd number and combines it with one byte. Both can be
undone, so an ending that two sequences have in common neither adds nor loses a difference between
them. Two bytes in a row do not cancel one another: the first leaves a difference below 256, which
the multiplication makes too large for one byte to make up for, and too small to wrap around.

- `Digest.update_append_inj`: a common ending changes nothing about being equal.
- `Digest.update_ne_of_short`: one or two bytes that differ make different hashes.
- `Digest.digests_of_edit`: hence a manifest cannot be edited in a window of two bytes without its
  digest showing it.
-/

namespace Chartkeeper

namespace Digest

variable {d d' : Digest}

/-! ## Steps can be undone -/

/-- What undoes a multiplication by the factor. -/
def primeInverse : UInt64 := 0xce965057aff6957b

theorem mul_prime_cancel (x : UInt64) : x * prime * primeInverse = x := by
  have hunit : prime * primeInverse = 1 := by decide
  rw [UInt64.mul_assoc, hunit, UInt64.mul_one]

theorem step_left_inj {byte : UInt8} : d.step byte = d'.step byte ↔ d = d' := by
  constructor
  · intro h
    have hproducts : d.state * prime = d'.state * prime :=
      (UInt64.xor_left_inj byte.toUInt64).mp (congrArg state h)
    have hstates := congrArg (· * primeInverse) hproducts
    simp only [mul_prime_cancel] at hstates
    exact congrArg mk hstates
  · exact congrArg (step · byte)

theorem step_right_inj {x y : UInt8} : d.step x = d.step y ↔ x = y := by
  constructor
  · intro h
    exact UInt8.toUInt64_inj.mp ((UInt64.xor_right_inj (d.state * prime)).mp (congrArg state h))
  · exact congrArg d.step

theorem update_left_inj {bytes : List UInt8} : d.update bytes = d'.update bytes ↔ d = d' := by
  induction bytes generalizing d d' with
  | nil => exact Iff.rfl
  | cons byte rest ih => exact ih.trans step_left_inj

/-- What two sequences end with in common changes nothing about whether they hash alike. -/
theorem update_append_inj {xs ys ending : List UInt8} :
    d.update (xs ++ ending) = d.update (ys ++ ending) ↔ d.update xs = d.update ys := by
  rw [update_append, update_append, update_left_inj]

/-! ## Two bytes do not cancel -/

/-- A hash but for its lowest byte. -/
def high (d : Digest) : Nat :=
  d.state.toNat / 256

/-- The byte that a step takes goes into the lowest byte. -/
theorem high_step (d : Digest) (byte : UInt8) :
    (d.step byte).high = d.state.toNat * 1099511628211 % UInt64.size / 256 := by
  have hbyte : byte.toNat / 2 ^ 8 = 0 := Nat.div_eq_of_lt byte.toNat_lt
  unfold high
  rw [toNat_step, show 256 = 2 ^ 8 from rfl, Nat.xor_div_two_pow, hbyte, Nat.xor_zero]

/-- A difference below 256 is at least as large after a multiplication, however often the products
wrap around. -/
theorem far_of_near (gap turns : Int) (hgap : gap ≠ 0) (hnear : gap.natAbs < 256) :
    256 ≤ (gap * 1099511628211 - turns * 18446744073709551616).natAbs := by
  rcases Int.lt_trichotomy turns 0 with h | h | h
  · omega
  · omega
  · omega

/-- Numbers that differ in their lowest byte only have products that differ in more than that. -/
theorem mul_div_ne {m n : Nat} (hhigh : m / 256 = n / 256) (hne : m ≠ n) :
    m * 1099511628211 % UInt64.size / 256 ≠ n * 1099511628211 % UInt64.size / 256 := by
  have hsize : UInt64.size = 18446744073709551616 := rfl
  rw [hsize]
  intro heq
  have hfar := far_of_near (m - n) ((m * 1099511628211 / 18446744073709551616 : Nat) -
    (n * 1099511628211 / 18446744073709551616 : Nat)) (by omega) (by omega)
  omega

/-- Hashes that differ in their lowest byte only differ in more than that after a step. -/
theorem high_step_ne (hhigh : d.high = d'.high) (hne : d ≠ d') (x y : UInt8) :
    (d.step x).high ≠ (d'.step y).high := by
  rw [high_step, high_step]
  exact mul_div_ne hhigh fun h => hne (congrArg mk (UInt64.toNat_inj.mp h))

theorem update_ne_of_short {xs ys : List UInt8} (hlength : xs.length = ys.length)
    (hshort : xs.length ≤ 2) (hne : xs ≠ ys) (d : Digest) : d.update xs ≠ d.update ys := by
  match xs, ys, hlength with
  | [], [], _ => exact absurd rfl hne
  | [x], [y], _ =>
    intro h
    exact hne (congrArg (fun b => [b]) (step_right_inj.mp h))
  | [x₁, x₂], [y₁, y₂], _ =>
    intro h
    by_cases hfirst : x₁ = y₁
    · subst hfirst
      exact hne (congrArg (fun b => [x₁, b]) (step_right_inj.mp h))
    · -- After the first byte the hashes agree but for their lowest bytes.
      have hhigh : (d.step x₁).high = (d.step y₁).high := by rw [high_step, high_step]
      exact high_step_ne hhigh (mt step_right_inj.mp hfirst) x₂ y₂ (congrArg high h)
  | _ :: _ :: _ :: _, _, _ => simp at hshort

/-! ## Edits -/

/-- Byte sequences of one length that differ, but nowhere outside of a window of some width. -/
structure DifferWithin (width : Nat) (xs ys : List UInt8) : Prop where
  length_eq : xs.length = ys.length
  ne : xs ≠ ys
  outside : ∃ start, ∀ i, i < start ∨ start + width ≤ i → xs[i]? = ys[i]?

/-- Such sequences are the same before and after what they hold in the window. -/
theorem differWithin_iff {width : Nat} {xs ys : List UInt8} :
    DifferWithin width xs ys ↔ ∃ front window window' back,
      xs = front ++ window ++ back ∧ ys = front ++ window' ++ back ∧
        window.length = window'.length ∧ window.length ≤ width ∧ window ≠ window' := by
  constructor
  · rintro ⟨hlength, hne, start, houtside⟩
    have hfront : xs.take start = ys.take start := by
      apply List.ext_getElem?
      intro i
      rw [List.getElem?_take, List.getElem?_take]
      split
      · rename_i hi
        exact houtside i (Or.inl hi)
      · rfl
    have hback : xs.drop (start + width) = ys.drop (start + width) := by
      apply List.ext_getElem?
      intro i
      rw [List.getElem?_drop, List.getElem?_drop]
      exact houtside _ (Or.inr (Nat.le_add_right _ i))
    have hcut (zs : List UInt8) :
        zs = zs.take start ++ (zs.drop start).take width ++ zs.drop (start + width) := by
      rw [List.append_assoc, ← List.drop_drop, List.take_append_drop, List.take_append_drop]
    refine ⟨xs.take start, (xs.drop start).take width, (ys.drop start).take width,
      xs.drop (start + width), hcut xs, ?_, ?_, List.length_take_le _ _, ?_⟩
    · rw [hfront, hback]
      exact hcut ys
    · simp only [List.length_take, List.length_drop, hlength]
    · intro hwindow
      apply hne
      rw [hcut xs, hcut ys, hfront, hback, hwindow]
  · rintro ⟨front, window, window', back, rfl, rfl, hlength, hshort, hne⟩
    refine ⟨by simp [hlength], by simpa using hne, front.length, ?_⟩
    rintro i (hi | hi)
    · simp only [List.append_assoc, List.getElem?_append_left hi]
    · rw [List.getElem?_append_right, List.getElem?_append_right]
      · simp [hlength]
      · rw [List.length_append]
        omega
      · rw [List.length_append]
        omega

theorem update_ne_of_differWithin {width : Nat} {xs ys : List UInt8}
    (h : DifferWithin width xs ys) (hwidth : width ≤ 2) (d : Digest) :
    d.update xs ≠ d.update ys := by
  obtain ⟨front, window, window', back, rfl, rfl, hlength, hshort, hne⟩ := differWithin_iff.mp h
  intro hsame
  rw [update_append_inj, update_append, update_append] at hsame
  exact update_ne_of_short hlength (Nat.le_trans hshort hwidth) hne _ hsame

/-! ## Digests -/

/-- The digits of a hash give it back. -/
theorem text_inj : d.text = d'.text ↔ d = d' := by
  constructor
  · intro h
    have hvalue := (hex_text d).value
    rw [h, (hex_text d').value] at hvalue
    exact congrArg mk (UInt64.toNat_inj.mp (Option.some.inj hvalue)).symm
  · exact congrArg text

/-- **Small edits show.** Manifests of one length in bytes that differ within a window of two bytes
have different digests, unless both are white space only, and so both have none. And whatever was
hashed before, two sequences hash alike exactly when they still do with a common ending. -/
theorem digests_of_edit :
    (∀ manifest manifest' : String,
      DifferWithin 2 manifest.toByteArray.data.toList manifest'.toByteArray.data.toList →
      ¬((∀ c ∈ manifest.toList, Text.isBlank c = true) ∧
        ∀ c ∈ manifest'.toList, Text.isBlank c = true) →
      ofManifest manifest ≠ ofManifest manifest') ∧
    ∀ (d : Digest) (xs ys ending : List UInt8),
      d.update (xs ++ ending) = d.update (ys ++ ending) ↔ d.update xs = d.update ys := by
  refine ⟨fun manifest manifest' hedit hvisible hsame => ?_, fun _ _ _ _ => update_append_inj⟩
  have hblank : Text.blank manifest = Text.blank manifest' := by
    rw [Bool.eq_iff_iff, ← ofManifest_eq_empty, ← ofManifest_eq_empty, hsame]
  cases hfirst : Text.blank manifest with
  | true =>
    rw [hfirst] at hblank
    exact hvisible ⟨List.all_eq_true.mp hfirst, List.all_eq_true.mp hblank.symm⟩
  | false =>
    rw [hfirst] at hblank
    rw [ofManifest_of_not_blank hfirst, ofManifest_of_not_blank hblank.symm, text_inj] at hsame
    exact update_ne_of_differWithin hedit (Nat.le_refl 2) start hsame

/-- One letter for another, both of whose bytes are different. -/
theorem digests_of_edit_letter :
    DifferWithin 2 "name: é\n".toByteArray.data.toList "name: Ā\n".toByteArray.data.toList ∧
      ofManifest "name: é\n" ≠ ofManifest "name: Ā\n" := by
  have hedit : DifferWithin 2 "name: é\n".toByteArray.data.toList
      "name: Ā\n".toByteArray.data.toList := by
    rw [← bytes_eq, ← bytes_eq, differWithin_iff]
    exact ⟨bytes "name: ", bytes "é", bytes "Ā", bytes "\n", by decide +kernel, by decide +kernel,
      by decide +kernel, by decide +kernel, by decide +kernel⟩
  refine ⟨hedit, digests_of_edit.1 _ _ hedit fun hblank => ?_⟩
  have hvisible : Text.blank "name: é\n" = false := by decide +kernel
  exact Bool.eq_false_iff.mp hvisible (List.all_eq_true.mpr hblank.1)

end Digest

end Chartkeeper
