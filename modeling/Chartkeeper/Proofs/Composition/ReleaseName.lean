import Mathlib.Data.List.DropRight
import Chartkeeper.Composition.Marks
/-!
# When derived release names meet

A release name is derived from the name of a record and the start of its identifier, cut to length
and trimmed. The cut comes last, so it takes the identifier away from long names, and two records
can then be left with one release name. They are exactly if what is left of both by the cut
differs in dashes at the end only, and that takes a name of more than 44 characters.
-/

namespace Chartkeeper.Composition

variable {c d : Composition} {cs ds name uid : List Char}

/-! ## Trimming -/

/-- Two texts that differ in dashes at the end only. -/
def SameButDashes (cs ds : List Char) : Prop :=
  ∃ n, cs = ds ++ List.replicate n '-' ∨ ds = cs ++ List.replicate n '-'

/-- The form in which the laws of dropping from the right are stated. -/
theorem trimDashes_eq (cs : List Char) : trimDashes cs = cs.rdropWhile (· = '-') := rfl

theorem trimDashes_append_replicate (cs : List Char) (n : Nat) :
    trimDashes (cs ++ List.replicate n '-') = trimDashes cs := by
  induction n with
  | zero => simp
  | succ n ih =>
    rw [List.replicate_succ', ← List.append_assoc, trimDashes_eq,
      List.rdropWhile_concat_pos _ _ _ (by simp)]
    exact ih

theorem exists_trimDashes_append (cs : List Char) :
    ∃ n, cs = trimDashes cs ++ List.replicate n '-' := by
  have hdashes : cs.rtakeWhile (· = '-') = List.replicate (cs.rtakeWhile (· = '-')).length '-' :=
    List.eq_replicate_of_mem fun c hc => by simpa using List.mem_rtakeWhile_imp hc
  have hsplit : cs.rdropWhile (· = '-') ++ cs.rtakeWhile (· = '-') = cs :=
    List.rdropWhile_append_rtakeWhile
  rw [hdashes] at hsplit
  exact ⟨_, hsplit.symm⟩

theorem trimDashes_eq_iff : trimDashes cs = trimDashes ds ↔ SameButDashes cs ds := by
  constructor
  · intro h
    obtain ⟨n, hn⟩ := exists_trimDashes_append cs
    obtain ⟨m, hm⟩ := exists_trimDashes_append ds
    -- Both are the one trimmed text with dashes after it, and the one with more dashes extends
    -- the other.
    have hlonger {t us vs : List Char} {i j : Nat} (hu : us = t ++ List.replicate i '-')
        (hv : vs = t ++ List.replicate j '-') (hle : i ≤ j) :
        vs = us ++ List.replicate (j - i) '-' := by
      rw [hu, hv, List.append_assoc, List.replicate_append_replicate, Nat.add_sub_cancel' hle]
    rw [h] at hn
    rcases Nat.le_total n m with hle | hle
    · exact ⟨_, Or.inr (hlonger hn hm hle)⟩
    · exact ⟨_, Or.inl (hlonger hm hn hle)⟩
  · rintro ⟨n, rfl | rfl⟩
    · exact trimDashes_append_replicate ds n
    · exact (trimDashes_append_replicate cs n).symm

/-- A text that does not end with a dash is not trimmed. -/
theorem trimDashes_append_of_not_mem (hne : ds ≠ []) (hds : '-' ∉ ds) :
    trimDashes (cs ++ ds) = cs ++ ds := by
  rw [trimDashes_eq, List.rdropWhile_eq_self_iff]
  intro hl
  rw [List.getLast_append_of_right_ne_nil _ _ hne]
  have hlast := List.getLast_mem hne
  intro hdash
  rw [of_decide_eq_true hdash] at hlast
  exact hds hlast

/-! ## Deriving -/

/-- A record whose release name is derived, from an identifier that is as the cluster gives them:
eight or more characters, the first eight without a dash. -/
structure Unnamed (c : Composition) : Prop where
  unlabelled : c.metadata.labels.get? releaseNameLabel = none
  long : uidPrefixLength ≤ c.uid.toList.length
  dashless : '-' ∉ c.uid.toList.take uidPrefixLength

/-- What is left by the cut of a name and the start of an identifier. -/
def cutName (c : Composition) : List Char :=
  (c.name.toList ++ '-' :: c.uid.toList.take uidPrefixLength).take longestReleaseName

theorem Unnamed.length_start (h : Unnamed c) :
    (c.uid.toList.take uidPrefixLength).length = 8 :=
  List.length_take_of_le h.long

theorem Unnamed.start_ne_nil (h : Unnamed c) : c.uid.toList.take uidPrefixLength ≠ [] := by
  intro hnil
  have hlength := h.length_start
  rw [hnil] at hlength
  exact nomatch hlength

theorem Unnamed.releaseName (h : Unnamed c) :
    c.releaseName = String.ofList (trimDashes c.cutName) := by
  have hname : c.releaseName? = none := by
    unfold releaseName?
    rw [h.unlabelled]
  have hstart := List.isEmpty_eq_false_iff.mpr h.start_ne_nil
  unfold Composition.releaseName
  rw [hname]
  unfold deriveReleaseName cutName
  simp [hstart]

/-- A name of up to 44 characters leaves room for all of the identifier's start. -/
theorem Unnamed.trimDashes_cutName (h : Unnamed c) (hshort : c.name.toList.length ≤ 44) :
    trimDashes c.cutName = c.name.toList ++ '-' :: c.uid.toList.take uidPrefixLength := by
  have hwhole : c.cutName = c.name.toList ++ '-' :: c.uid.toList.take uidPrefixLength := by
    refine List.take_of_length_le ?_
    rw [List.length_append, List.length_cons, h.length_start]
    unfold longestReleaseName
    omega
  rw [hwhole, List.append_cons]
  exact trimDashes_append_of_not_mem h.start_ne_nil h.dashless

theorem Unnamed.releaseName_eq_iff (hc : Unnamed c) (hd : Unnamed d) :
    c.releaseName = d.releaseName ↔ SameButDashes c.cutName d.cutName := by
  rw [hc.releaseName, hd.releaseName, String.ofList_inj, trimDashes_eq_iff]

/-- Of two names of up to 44 characters, each can be read off its release name. -/
theorem Unnamed.name_eq (hc : Unnamed c) (hd : Unnamed d) (hcs : c.name.toList.length ≤ 44)
    (hds : d.name.toList.length ≤ 44) (h : c.releaseName = d.releaseName) : c.name = d.name := by
  rw [hc.releaseName, hd.releaseName, String.ofList_inj, hc.trimDashes_cutName hcs,
    hd.trimDashes_cutName hds] at h
  have hlength : ('-' :: c.uid.toList.take uidPrefixLength).length =
      ('-' :: d.uid.toList.take uidPrefixLength).length := by
    rw [List.length_cons, List.length_cons, hc.length_start, hd.length_start]
  exact String.toList_inj.mp (List.append_inj_left' h hlength)

end Chartkeeper.Composition
