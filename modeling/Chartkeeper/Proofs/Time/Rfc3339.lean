import Mathlib.Algebra.Group.Nat.Defs
import Mathlib.Data.List.TakeWhile
import Chartkeeper.Time.Rfc3339
/-!
# Written instants are read back

The text of an instant is read back as the same instant by the lenient reader, which every record
uses: leap seconds, years outside of four digits and all four lengths of a fraction included. On the
calendar this is that a day is counted back to where it came from; in the text, that each number
ends where its digits do.

- `Day.toEpoch_ofEpoch`: days are counted back.
- `readDigits_append`: a number is read up to where its digits end.
- `Instant.readLenient?_text`: written instants are read back.
-/

namespace Chartkeeper

/-! ## The calendar -/

namespace Day

/-- A day by its place in an era of four hundred years, in which years and months are counted from
March. -/
def inEra (era year month day : Int) : Day :=
  let calendarMonth := if month < 10 then month + 3 else month - 9
  ⟨if calendarMonth ≤ 2 then year + era * 400 + 1 else year + era * 400, calendarMonth.toNat,
    day.toNat⟩

theorem toEpoch_inEra {era year month day : Int} (hyear : 0 ≤ year ∧ year < 400)
    (hmonth : 0 ≤ month ∧ month ≤ 11) (hday : 0 ≤ day) :
    (inEra era year month day).toEpoch =
      era * 146097 + (year * 365 + year / 4 - year / 100 + ((153 * month + 2) / 5 + day - 1))
        - 719468 := by
  unfold inEra toEpoch
  by_cases hspring : month < 10
  · have hlate : ¬month + 3 ≤ 2 := by omega
    have hlate' : ¬(month + 3).toNat ≤ 2 := by omega
    simp only [if_pos hspring, if_neg hlate, if_neg hlate']
    omega
  · have hearly : month - 9 ≤ 2 := by omega
    have hearly' : (month - 9).toNat ≤ 2 := by omega
    simp only [if_neg hspring, if_pos hearly, if_pos hearly']
    omega

/-- The year that is computed for a day of an era is the one that the day lies in. -/
theorem dayOfYear_bounds {dayOfEra year : Int} (h : 0 ≤ dayOfEra ∧ dayOfEra < 146097)
    (hyear : year = (dayOfEra - dayOfEra / 1460 + dayOfEra / 36524 - dayOfEra / 146096) / 365) :
    0 ≤ dayOfEra - (365 * year + year / 4 - year / 100) ∧
      dayOfEra - (365 * year + year / 4 - year / 100) ≤ 365 := by
  -- within one century the leap days of the years before are every fourth
  have hcentury : year / 100 = 0 ∨ year / 100 = 1 ∨ year / 100 = 2 ∨ year / 100 = 3 := by omega
  rcases hcentury with hcentury | hcentury | hcentury | hcentury <;> constructor <;> omega

/-- **Days are counted back.** -/
theorem toEpoch_ofEpoch (days : Int) : (ofEpoch days).toEpoch = days := by
  unfold ofEpoch
  extract_lets z era dayOfEra year dayOfYear month day
  have hera : 0 ≤ dayOfEra ∧ dayOfEra < 146097 := by omega
  have hdayOfYear : 0 ≤ dayOfYear ∧ dayOfYear ≤ 365 := dayOfYear_bounds hera rfl
  have hday : (inEra era year month day).toEpoch = _ :=
    toEpoch_inEra (by omega) (by omega) (by omega)
  refine hday.trans ?_
  omega

theorem monthLength_bounds (year : Int) (month : Nat) :
    monthLength year month ≤ 31 ∧ (0 < monthLength year month → month ≤ 12) := by
  unfold monthLength
  split <;> try split
  all_goals omega

theorem isValid_bounds {d : Day} (h : d.isValid = true) : d.month ≤ 12 ∧ d.day ≤ 31 := by
  have hlength := monthLength_bounds d.year d.month
  simp only [isValid, Bool.and_eq_true, decide_eq_true_eq] at h
  omega

end Day

/-! ## Numbers -/

namespace Text

variable {width n : Nat}

theorem toList_padded (width n : Nat) :
    (padded width n).toList =
      List.replicate (width - (Nat.toDigits 10 n).length) '0' ++ Nat.toDigits 10 n := by
  unfold padded
  rw [String.toList_ofList]

theorem isDigit_of_mem_padded {c : Char} (h : c ∈ (padded width n).toList) : c.isDigit = true := by
  rw [toList_padded] at h
  rcases List.mem_append.mp h with h | h
  · rw [List.eq_of_mem_replicate h]
    decide
  · exact Nat.isDigit_of_mem_toDigits (by decide) (by decide) h

theorem isEmpty_toList_padded : (padded width n).toList.isEmpty = false := by
  simp [toList_padded]

theorem length_padded (hwidth : 0 < width) (h : n < 10 ^ width) :
    (padded width n).toList.length = width := by
  have hlength : (Nat.toDigits 10 n).length ≤ width :=
    (Nat.length_toDigits_le_iff (by decide) hwidth).mpr h
  rw [toList_padded, List.length_append, List.length_replicate]
  omega

/-- Leading zeros do not count. -/
theorem digits?_padded : digits? (padded width n).toList = some n := by
  have hdigits : (padded width n).toList.all Char.isDigit = true :=
    List.all_eq_true.mpr fun _ => isDigit_of_mem_padded
  unfold digits?
  rw [hdigits, isEmpty_toList_padded, toList_padded]
  show some (Nat.ofDigitChars 10 _ 0) = some n
  rw [Nat.ofDigitChars_append]
  simp

end Text

namespace Instant

open Text

/-- The digits that are taken end where no more are taken, or where none follows. -/
theorem takeWhile_take_append {most : Nat} {ds rest : List Char}
    (hdigits : ∀ c ∈ ds, c.isDigit = true) (hmost : ds.length ≤ most)
    (hend : ds.length = most ∨ rest.head?.all (!·.isDigit)) :
    ((ds ++ rest).take most).takeWhile Char.isDigit = ds := by
  rw [List.take_append, List.take_of_length_le hmost,
    List.takeWhile_append_of_pos fun c hc => hdigits c hc]
  rcases hend with hend | hend
  · simp [hend]
  · cases rest with
    | nil => simp
    | cons c rest =>
      cases most - ds.length with
      | zero => simp
      | succ k => simp_all

/-- **A number is read up to where its digits end.** -/
theorem readDigits_append {least most n : Nat} {ds rest : List Char}
    (hdigits : ∀ c ∈ ds, c.isDigit = true) (hvalue : digits? ds = some n)
    (hleast : least ≤ ds.length) (hmost : ds.length ≤ most)
    (hend : ds.length = most ∨ rest.head?.all (!·.isDigit)) :
    readDigits least most (ds ++ rest) = some (n, rest) := by
  unfold readDigits
  rw [takeWhile_take_append hdigits hmost hend, if_neg (by omega), hvalue]
  simp

theorem readDigits_padded {least width n : Nat} (rest : List Char) (hleast : least ≤ width)
    (hwidth : 0 < width) (h : n < 10 ^ width) :
    readDigits least width ((padded width n).toList ++ rest) = some (n, rest) := by
  have hlength := length_padded hwidth h
  exact readDigits_append (fun _ => isDigit_of_mem_padded) digits?_padded (by omega) (by omega)
    (.inl hlength)

theorem isBlank_of_isDigit {c : Char} (h : c.isDigit = true) : isBlank c = false := by
  have hcode : 48 ≤ c.toNat ∧ c.toNat ≤ 57 := by
    simpa using Char.isDigit_iff_toNat.mp h
  rw [isBlank, List.any_eq_false]
  intro range hrange
  have hranges : ∀ range ∈ blankRanges, range.2 < 48 ∨ 57 < range.1 := by decide
  rcases hranges range hrange with hbefore | hafter
  · simp only [Bool.and_eq_true, decide_eq_true_eq]
    omega
  · simp only [Bool.and_eq_true, decide_eq_true_eq]
    omega

theorem skipBlank_cons {c : Char} (h : isBlank c = false) (rest : List Char) :
    skipBlank (c :: rest) = c :: rest := by
  simp [skipBlank, h]

/-- A written number starts in a digit. -/
theorem exists_padded_eq_cons (width n : Nat) :
    ∃ c cs, (padded width n).toList = c :: cs ∧ c.isDigit = true := by
  cases h : (padded width n).toList with
  | nil => exact absurd h (by simp [toList_padded])
  | cons c cs => exact ⟨c, cs, rfl, isDigit_of_mem_padded (by rw [h]; exact List.mem_cons_self)⟩

theorem skipBlank_padded (width n : Nat) (rest : List Char) :
    skipBlank ((padded width n).toList ++ rest) = (padded width n).toList ++ rest := by
  obtain ⟨c, cs, heq, hdigit⟩ := exists_padded_eq_cons width n
  rw [heq]
  exact skipBlank_cons (isBlank_of_isDigit hdigit) _

theorem readShort_padded {n : Nat} (h : n < 100) (rest : List Char) :
    readShort ((padded 2 n).toList ++ rest) = some (n, rest) := by
  unfold readShort
  rw [skipBlank_padded]
  exact readDigits_padded rest (by decide) (by decide) h

/-! ## Years and fractions -/

/-- A year outside of four digits is read up to the dash that follows it. -/
theorem readYear_signed {sign : Char} (hsign : sign = '-' ∨ sign = '+') (n : Nat)
    (rest : List Char) :
    readYear (sign :: ((padded 4 n).toList ++ '-' :: rest)) =
      some (if sign = '-' then -(n : Int) else n, '-' :: rest) := by
  -- the number is read with no bound but the length of the text
  have hread : ∀ most, most = ((padded 4 n).toList ++ '-' :: rest).length →
      readDigits 1 most ((padded 4 n).toList ++ '-' :: rest) = some (n, '-' :: rest) := by
    intro most hmost
    obtain ⟨c, cs, heq, -⟩ := exists_padded_eq_cons 4 n
    have hlength : (padded 4 n).toList.length = cs.length + 1 := by simp [heq]
    have hend : ('-' :: rest).head?.all (!·.isDigit) = true := rfl
    rw [List.length_append] at hmost
    exact readDigits_append (fun _ => isDigit_of_mem_padded) digits?_padded (by omega) (by omega)
      (.inr hend)
  unfold readYear
  rcases hsign with rfl | rfl
  · rw [skipBlank_cons (by decide)]
    simp [hread]
  · rw [skipBlank_cons (by decide)]
    simp [hread]

/-- A year without a sign starts in a digit. -/
theorem readYear_unsigned {c : Char} (rest : List Char) (h : c.isDigit = true) :
    readYear (c :: rest) = (readDigits 1 4 (c :: rest)).map fun p => ((p.1 : Int), p.2) := by
  unfold readYear
  rw [skipBlank_cons (isBlank_of_isDigit h)]
  split
  · simp_all
  · simp_all
  · rfl

theorem readYear_yearText (year : Int) (rest : List Char) :
    readYear ((yearText year).toList ++ '-' :: rest) = some (year, '-' :: rest) := by
  unfold yearText
  by_cases hshort : 0 ≤ year ∧ year ≤ 9999
  · have hread : readDigits 1 4 _ = some (year.toNat, '-' :: rest) :=
      readDigits_padded ('-' :: rest) (by decide) (by decide) (by omega)
    obtain ⟨c, cs, heq, hdigit⟩ := exists_padded_eq_cons 4 year.toNat
    rw [if_pos (by simpa using hshort), heq, List.cons_append]
    rw [heq, List.cons_append] at hread
    rw [readYear_unsigned _ hdigit, hread, Option.map_some, Int.toNat_of_nonneg hshort.1]
  · rw [if_neg (by simpa using hshort)]
    by_cases hnegative : year < 0
    · have hsign : ("-" ++ padded 4 year.natAbs).toList = '-' :: (padded 4 year.natAbs).toList := by
        simp
      have hyear : -(year.natAbs : Int) = year := by omega
      rw [if_pos hnegative, hsign, List.cons_append, readYear_signed (.inl rfl), if_pos rfl, hyear]
    · have hsign : ("+" ++ padded 4 year.natAbs).toList = '+' :: (padded 4 year.natAbs).toList := by
        simp
      have hyear : (year.natAbs : Int) = year := by omega
      rw [if_neg hnegative, hsign, List.cons_append, readYear_signed (.inr rfl),
        if_neg (by decide), hyear]

theorem readFraction_dot (width : Nat) {n : Nat} (hwidth : 0 < width ∧ width ≤ 9)
    (h : n < 10 ^ width) (rest : List Char) :
    readFraction (("." ++ padded width n).toList ++ 'Z' :: rest) =
      some (n * 10 ^ (9 - width), 'Z' :: rest) := by
  have hdot : ("." ++ padded width n).toList = '.' :: (padded width n).toList := by simp
  have hlength := length_padded hwidth.1 h
  have hdigits : ∀ c ∈ (padded width n).toList, c.isDigit = true := fun _ => isDigit_of_mem_padded
  rw [hdot, List.cons_append, readFraction,
    takeWhile_take_append hdigits (by omega) (.inr (by simp)), digits?_padded,
    List.dropWhile_append_of_pos hdigits, hlength]
  rfl

/-- A fraction is read up to the mark of the time zone, whichever of its lengths it has. -/
theorem readFraction_fractionText (t : Instant) (rest : List Char) :
    readFraction (t.fractionText.toList ++ 'Z' :: rest) =
      some (t.nanos % 1000000000, 'Z' :: rest) := by
  unfold fractionText
  generalize t.nanos % 1000000000 = n, Nat.mod_lt t.nanos (show 0 < 1000000000 by decide) = hn
  by_cases hzero : n = 0
  · rw [if_pos hzero, hzero]
    rfl
  rw [if_neg hzero]
  by_cases hmilli : n % 1000000 = 0
  · have hvalue : n / 1000000 * 10 ^ (9 - 3) = n := by omega
    rw [if_pos hmilli, readFraction_dot 3 (by decide) (by omega), hvalue]
  rw [if_neg hmilli]
  by_cases hmicro : n % 1000 = 0
  · have hvalue : n / 1000 * 10 ^ (9 - 6) = n := by omega
    rw [if_pos hmicro, readFraction_dot 6 (by decide) (by omega), hvalue]
  have hvalue : n * 10 ^ (9 - 9) = n := by omega
  rw [if_neg hmicro, readFraction_dot 9 (by decide) (by omega), hvalue]

/-! ## Instants -/

/-- The instants that there are: those of the calendar's years, to the nanosecond. Only the last
second of a minute can be followed by a leap second. -/
structure Proper (t : Instant) : Prop where
  isValid : t.isValid = true
  nanos : t.nanos < 1000000000 ∨ t.seconds % 60 = 59 ∧ t.nanos < 2000000000

instance (t : Instant) : Decidable t.Proper :=
  decidable_of_iff
    (t.isValid = true ∧ (t.nanos < 1000000000 ∨ t.seconds % 60 = 59 ∧ t.nanos < 2000000000))
    ⟨fun h => ⟨h.1, h.2⟩, fun h => ⟨h.isValid, h.nanos⟩⟩

/-- The time of day of an instant in UTC. A leap second is the sixtieth of its minute. -/
def clock (t : Instant) : Clock :=
  let s := (t.seconds % 86400).toNat
  let leap := if 1000000000 ≤ t.nanos then 1 else 0
  ⟨s / 3600, s / 60 % 60, s % 60 + leap, t.nanos % 1000000000, 0⟩

/-- The parts of the text, with the marks between them. -/
theorem toList_text (t : Instant) :
    t.text.toList = (yearText t.day.year).toList ++ '-' :: ((padded 2 t.day.month).toList ++
      '-' :: ((padded 2 t.day.day).toList ++ 'T' :: ((padded 2 t.clock.hour).toList ++
      ':' :: ((padded 2 t.clock.minute).toList ++ ':' :: ((padded 2 t.clock.second).toList ++
      (t.fractionText.toList ++ ['Z'])))))) := by
  simp [text, secondsText, clock]

/-- Either there is no leap second, or it follows the last second of the minute. -/
theorem Proper.leap_cases {t : Instant} (h : t.Proper) :
    (t.clock.second = (t.seconds % 60).toNat ∧ t.nanos < 1000000000) ∨
      (t.clock.second = 60 ∧ t.seconds % 60 = 59 ∧
        1000000000 ≤ t.nanos ∧ t.nanos < 2000000000) := by
  have hnanos := h.nanos
  unfold clock
  by_cases hleap : 1000000000 ≤ t.nanos
  · simp only [if_pos hleap]
    omega
  · simp only [if_neg hleap]
    omega

theorem hour_clock (t : Instant) : t.clock.hour = (t.seconds % 86400).toNat / 3600 := rfl

theorem minute_clock (t : Instant) : t.clock.minute = (t.seconds % 86400).toNat / 60 % 60 := rfl

theorem Proper.clock_bounds {t : Instant} (h : t.Proper) :
    t.clock.hour ≤ 23 ∧ t.clock.minute ≤ 59 ∧ t.clock.second ≤ 60 := by
  have hhour := t.hour_clock
  have hminute := t.minute_clock
  refine ⟨by omega, by omega, ?_⟩
  rcases h.leap_cases with hleap | hleap <;> omega

/-- The day and the time of day make up the instant. -/
theorem Proper.ofParts?_clock {t : Instant} (h : t.Proper) : ofParts? t.day t.clock = some t := by
  obtain ⟨hhour, hminute, hsecond⟩ := h.clock_bounds
  have hoffset : t.clock.offset = 0 := rfl
  have hinstant : (⟨t.day.toEpoch * 86400 + (t.clock.hour * 3600 + t.clock.minute * 60 +
        (if t.clock.second = 60 then 59 else t.clock.second) : Nat) - t.clock.offset,
      t.clock.nanos + if t.clock.second = 60 then 1000000000 else 0⟩ : Instant) = t := by
    have hday : t.day.toEpoch = t.seconds / 86400 := Day.toEpoch_ofEpoch _
    have hfraction : t.clock.nanos = t.nanos % 1000000000 := rfl
    rw [hday, hoffset, hour_clock, minute_clock, hfraction]
    obtain ⟨seconds, nanos⟩ := t
    rcases h.leap_cases with ⟨hsecond, hnanos⟩ | ⟨hsecond, hlast, hnanos⟩
    · rw [if_neg (by omega), if_neg (by omega), hsecond, Instant.mk.injEq]
      dsimp only at *
      constructor <;> omega
    · rw [if_pos hsecond, if_pos hsecond, Instant.mk.injEq]
      dsimp only at *
      constructor <;> omega
  have hday : t.day.isValid = true := h.isValid
  unfold ofParts?
  rw [if_pos (by simp [hday, hhour, hminute, hsecond, hoffset])]
  simp only [hinstant, h.isValid, if_true]

/-- **Written instants are read back.** -/
theorem readLenient?_text {t : Instant} (h : t.Proper) : readLenient? t.text = some t := by
  obtain ⟨hmonth, hday⟩ := Day.isValid_bounds (d := t.day) h.isValid
  obtain ⟨hhour, hminute, hsecond⟩ := h.clock_bounds
  have hdash (rest : List Char) : readOneOf ['-'] (skipBlank ('-' :: rest)) = some rest := rfl
  have hcolon (rest : List Char) : readOneOf [':'] (skipBlank (':' :: rest)) = some rest := rfl
  have hzone : ¬((skipBlank ['Z']).take 3).map Char.toUpper = ['U', 'T', 'C'] := by decide
  unfold readLenient?
  rw [toList_text]
  -- the parts of the text in order, each read up to the mark that follows it
  refine Option.bind_eq_some_iff.mpr ⟨_, readYear_yearText _ _, ?_⟩
  refine Option.bind_eq_some_iff.mpr ⟨_, hdash _, ?_⟩
  refine Option.bind_eq_some_iff.mpr ⟨_, readShort_padded (by omega) _, ?_⟩
  refine Option.bind_eq_some_iff.mpr ⟨_, hdash _, ?_⟩
  refine Option.bind_eq_some_iff.mpr ⟨_, readShort_padded (by omega) _, ?_⟩
  refine Option.bind_eq_some_iff.mpr ⟨_, rfl, ?_⟩
  refine Option.bind_eq_some_iff.mpr ⟨_, readShort_padded (by omega) _, ?_⟩
  refine Option.bind_eq_some_iff.mpr ⟨_, hcolon _, ?_⟩
  refine Option.bind_eq_some_iff.mpr ⟨_, readShort_padded (by omega) _, ?_⟩
  refine Option.bind_eq_some_iff.mpr ⟨_, hcolon _, ?_⟩
  refine Option.bind_eq_some_iff.mpr ⟨_, readShort_padded (by omega) _, ?_⟩
  refine Option.bind_eq_some_iff.mpr ⟨_, readFraction_fractionText _ _, ?_⟩
  refine (if_neg hzone).trans (Option.bind_eq_some_iff.mpr ⟨(0, []), rfl, ?_⟩)
  exact h.ofParts?_clock

end Instant

end Chartkeeper
