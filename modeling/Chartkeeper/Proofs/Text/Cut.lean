import Mathlib.Data.List.Infix
import Mathlib.Data.List.TakeWhile
import Chartkeeper.Text.Blank
import Chartkeeper.Text.Cut
/-!
# Where texts are cut

What the parts of a cut text are, said without the cutting. A doubled character is found where it
occurs first: neither is it in the text before, nor does that text end in the character itself. The
pieces of a text hold no separator and are joined by it, and a trimmed text starts and ends in a
character that is not blank, with blank ones alone around it.
-/

namespace Chartkeeper.Text

variable {c : Char} {text : List Char}

/-! ## Marks -/

/-- A text goes on after a mark exactly if it starts with it. -/
theorem afterStart?_eq_some_iff {mark rest : List Char} :
    afterStart? mark text = some rest ↔ text = mark ++ rest := by
  induction mark generalizing text with
  | nil => exact Option.some_inj
  | cons m mark ih =>
    cases text with
    | nil => exact iff_of_false nofun nofun
    | cons d text =>
      unfold afterStart?
      by_cases hd : m = d
      · rw [if_pos hd, ih, hd, List.cons_append, List.cons.injEq, and_iff_right rfl]
      · rw [if_neg hd]
        exact iff_of_false nofun fun heq => hd (List.cons.inj heq).1.symm

theorem afterStart?_eq_none_iff {mark : List Char} :
    afterStart? mark text = none ↔ ¬mark <+: text := by
  rw [← Option.not_isSome_iff_eq_none, Option.isSome_iff_exists]
  refine not_congr ⟨?_, ?_⟩
  · rintro ⟨rest, hrest⟩
    exact ⟨rest, (afterStart?_eq_some_iff.mp hrest).symm⟩
  · rintro ⟨rest, hrest⟩
    exact ⟨rest, afterStart?_eq_some_iff.mpr hrest.symm⟩

/-- A text before a doubled character: it neither holds the pair nor ends in half of it. -/
def Clear (c : Char) (text : List Char) : Prop :=
  ¬[c, c] <:+: text ∧ text.getLast? ≠ some c

theorem clear_nil : Clear c [] :=
  ⟨by simp, nofun⟩

/-- Each character of a clear text starts no pair, also not with the character that comes next. -/
theorem clear_cons_iff {d : Char} :
    Clear c (d :: text) ↔ Clear c text ∧ ¬[c, c] <+: d :: (text ++ [c]) := by
  unfold Clear
  cases text with
  | nil =>
    simp only [List.infix_cons_iff, List.nil_append, List.cons_prefix_cons]
    simp [ne_comm]
  | cons e text =>
    simp only [List.infix_cons_iff, List.cons_append, List.cons_prefix_cons, List.getLast?_cons_cons,
      List.nil_prefix, and_true]
    tauto

/-- **A doubled character is found where it occurs first.** -/
theorem cutMark_of_clear {head : List Char} (h : Clear c head) (tail : List Char) :
    cutMark [c, c] (head ++ [c, c] ++ tail) = some (head, tail) := by
  induction head with
  | nil =>
    have hstart : afterStart? [c, c] (c :: c :: tail) = some tail :=
      afterStart?_eq_some_iff.mpr rfl
    show cutMark [c, c] (c :: c :: tail) = _
    unfold cutMark
    rw [hstart]
  | cons d head ih =>
    obtain ⟨hhead, hpair⟩ := clear_cons_iff.mp h
    have hstart : afterStart? [c, c] (d :: (head ++ [c, c] ++ tail)) = none := by
      rw [afterStart?_eq_none_iff]
      have hwhole : d :: (head ++ [c]) <+: d :: (head ++ [c, c] ++ tail) := ⟨c :: tail, by simp⟩
      exact fun hprefix =>
        hpair (List.prefix_of_prefix_length_le hprefix hwhole (by simp))
    show cutMark [c, c] (d :: (head ++ [c, c] ++ tail)) = _
    unfold cutMark
    rw [hstart, ih hhead]
    rfl

theorem cutMark_eq_some {head tail : List Char} (h : cutMark [c, c] text = some (head, tail)) :
    text = head ++ [c, c] ++ tail ∧ Clear c head := by
  induction text generalizing head with
  | nil => exact nomatch h
  | cons d text ih =>
    unfold cutMark at h
    cases hstart : afterStart? [c, c] (d :: text) with
    | some rest =>
      rw [hstart] at h
      obtain ⟨rfl, rfl⟩ := Prod.mk.inj (Option.some.inj h)
      exact ⟨afterStart?_eq_some_iff.mp hstart, clear_nil⟩
    | none =>
      rw [hstart] at h
      obtain ⟨⟨before, after⟩, hcut, heq⟩ := Option.map_eq_some_iff.mp h
      obtain ⟨rfl, rfl⟩ := Prod.mk.inj heq
      obtain ⟨rfl, hclear⟩ := ih hcut
      refine ⟨rfl, clear_cons_iff.mpr ⟨hclear, fun hpair => ?_⟩⟩
      refine afterStart?_eq_none_iff.mp hstart (hpair.trans ?_)
      exact ⟨c :: after, by simp⟩

theorem cutMark_eq_none_iff : cutMark [c, c] text = none ↔ ¬[c, c] <:+: text := by
  induction text with
  | nil => exact iff_of_true rfl (by simp)
  | cons d text ih =>
    unfold cutMark
    rw [List.infix_cons_iff, not_or, ← ih, ← afterStart?_eq_none_iff]
    cases afterStart? [c, c] (d :: text) with
    | some rest => simp
    | none => simp

/-! ## Pieces -/

theorem pieces_of_not_mem (h : c ∉ text) : pieces c text = [text] := by
  induction text with
  | nil => rfl
  | cons d text ih =>
    obtain ⟨hd, htext⟩ := not_or.mp (mt List.mem_cons.mpr h)
    unfold pieces
    rw [if_neg (Ne.symm hd), ih htext]

theorem pieces_append {piece : List Char} (h : c ∉ piece) (rest : List Char) :
    pieces c (piece ++ c :: rest) = piece :: pieces c rest := by
  induction piece with
  | nil =>
    show pieces c (c :: rest) = _
    rw [pieces, if_pos rfl]
  | cons d piece ih =>
    obtain ⟨hd, hpiece⟩ := not_or.mp (mt List.mem_cons.mpr h)
    show pieces c (d :: (piece ++ c :: rest)) = _
    rw [pieces, if_neg (Ne.symm hd), ih hpiece]

/-- **The pieces of a text** are the parts that it is joined from. -/
theorem pieces_intercalate {parts : List (List Char)} (hne : parts ≠ [])
    (h : ∀ part ∈ parts, c ∉ part) : pieces c (List.intercalate [c] parts) = parts := by
  induction parts with
  | nil => exact absurd rfl hne
  | cons part rest ih =>
    obtain ⟨hpart, hrest⟩ := List.forall_mem_cons.mp h
    cases rest with
    | nil =>
      rw [List.intercalate_singleton]
      exact pieces_of_not_mem hpart
    | cons next rest =>
      rw [List.intercalate_cons_cons, List.append_assoc, List.singleton_append, pieces_append hpart,
        ih (List.cons_ne_nil _ _) hrest]

theorem pieces_ne_nil (c : Char) : ∀ text : List Char, pieces c text ≠ []
  | [] => List.cons_ne_nil _ _
  | d :: text => by
      unfold pieces
      split
      · exact List.cons_ne_nil _ _
      · split
        · exact List.cons_ne_nil _ _
        · exact List.cons_ne_nil _ _

/-- Every text is joined from its pieces. -/
theorem intercalate_pieces (c : Char) (text : List Char) :
    List.intercalate [c] (pieces c text) = text ∧ ∀ piece ∈ pieces c text, c ∉ piece := by
  induction text with
  | nil => simp [pieces]
  | cons d text ih =>
    obtain ⟨hjoin, hplain⟩ := ih
    obtain ⟨piece, rest, hpieces⟩ := List.exists_cons_of_ne_nil (pieces_ne_nil c text)
    rw [hpieces] at hjoin hplain
    unfold pieces
    rw [hpieces]
    by_cases hd : d = c
    · rw [if_pos hd]
      refine ⟨?_, List.forall_mem_cons.mpr ⟨List.not_mem_nil, hplain⟩⟩
      rw [List.intercalate_cons_cons, hjoin, hd]
      rfl
    · rw [if_neg hd]
      obtain ⟨hpiece, hrest⟩ := List.forall_mem_cons.mp hplain
      refine ⟨?_, List.forall_mem_cons.mpr ⟨?_, hrest⟩⟩
      · rw [← hjoin]
        cases rest with
        | nil => simp
        | cons next rest => simp [List.intercalate_cons_cons]
      · exact List.not_mem_cons_of_ne_of_not_mem (Ne.symm hd) hpiece

/-! ## Blank characters around a text -/

/-- A text without the blank characters around it. -/
structure Trimmed (text core : List Char) : Prop where
  around : ∃ front back, text = front ++ core ++ back ∧ (∀ d ∈ front, isBlank d = true) ∧
    ∀ d ∈ back, isBlank d = true
  first : ∀ d ∈ core.head?, isBlank d = false
  last : ∀ d ∈ core.getLast?, isBlank d = false

theorem dropWhile_append_of_forall {p : Char → Bool} {front core : List Char}
    (hfront : ∀ d ∈ front, p d = true) (hcore : ∀ d ∈ core.head?, p d = false) :
    (front ++ core).dropWhile p = core := by
  rw [List.dropWhile_append_of_pos hfront]
  cases core with
  | nil => rfl
  | cons d core => rw [List.dropWhile_cons_of_neg (by simp [hcore d rfl])]

theorem Trimmed.eq {core : List Char} (h : Trimmed text core) : trimChars text = core := by
  obtain ⟨⟨front, back, rfl, hfront, hback⟩, hfirst, hlast⟩ := h
  have hright : trimRight (core ++ back) = core := by
    unfold trimRight
    rw [List.reverse_append, dropWhile_append_of_forall, List.reverse_reverse]
    · simpa using hback
    · rwa [List.head?_reverse]
  unfold trimChars
  by_cases hcore : core = []
  · subst hcore
    rw [List.append_nil, ← List.append_nil (front ++ back), dropWhile_append_of_forall _ (by simp)]
    · rfl
    · intro d hd
      exact (List.mem_append.mp hd).elim (hfront d) (hback d)
  · rw [List.append_assoc, dropWhile_append_of_forall hfront, hright]
    rwa [List.head?_append_of_ne_nil _ hcore]

theorem trimmed_trimChars (text : List Char) : Trimmed text (trimChars text) := by
  have hfirst {d : Char} {cs : List Char} (h : d ∈ (cs.dropWhile isBlank).head?) :
      isBlank d = false := by
    have hnot := List.head?_dropWhile_not isBlank cs
    rw [h] at hnot
    exact hnot
  unfold trimChars trimRight
  generalize hrest : text.dropWhile isBlank = rest
  have hsplit : rest = (rest.reverse.dropWhile isBlank).reverse ++
      (rest.reverse.takeWhile isBlank).reverse := by
    rw [← List.reverse_append, List.takeWhile_append_dropWhile, List.reverse_reverse]
  refine ⟨⟨text.takeWhile isBlank, (rest.reverse.takeWhile isBlank).reverse, ?_, ?_, ?_⟩, ?_, ?_⟩
  · rw [List.append_assoc, ← hsplit, ← hrest, List.takeWhile_append_dropWhile]
  · exact fun d hd => List.mem_takeWhile_imp hd
  · exact fun d hd => List.mem_takeWhile_imp (List.mem_reverse.mp hd)
  · intro d hd
    refine @hfirst d text ?_
    rw [hrest, hsplit, List.head?_append, hd]
    rfl
  · intro d hd
    rw [List.getLast?_reverse] at hd
    exact hfirst hd

/-- A text is trimmed to what is left between the blank characters around it. -/
theorem trimmed_iff {core : List Char} : Trimmed text core ↔ trimChars text = core :=
  ⟨Trimmed.eq, fun h => h ▸ trimmed_trimChars text⟩

end Chartkeeper.Text
