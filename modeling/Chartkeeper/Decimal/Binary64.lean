import Chartkeeper.Decimal.Basic
/-!
# Doubles

The magnitudes `m · 2^q` of the finite doubles, with `m < 2^53` and `q ≥ -1074`, in exact
integer arithmetic: rounding a quotient to the nearest of them, and the shortest decimal that
reads back as one. Main definitions: `Binary64.round?` and `Binary64.shortest`.
-/

namespace Chartkeeper

/-- The magnitude `m · 2^q` of a finite double. -/
structure Binary64 where
  m : Nat
  q : Int
  deriving DecidableEq, Repr, Inhabited

namespace Binary64

/-- The least significand of 53 bits. -/
def leading : Nat := 4503599627370496

/-- A power with a whole exponent, as a quotient of naturals. -/
def power (base : Nat) (e : Int) : Nat × Nat :=
  if e < 0 then (1, Nat.pow base (-e).toNat) else (Nat.pow base e.toNat, 1)

/-- The whole number nearest to `num / den`, ties to the even one. -/
def roundDiv (num den : Nat) : Nat :=
  let whole := num / den
  let rest := num % den
  if 2 * rest < den then whole
  else if den < 2 * rest then whole + 1
  else if whole % 2 = 0 then whole else whole + 1

/-- The binary exponent of the grid on which `num / den` is rounded: 53 bits, but never finer
than `2^-1074`. -/
def grid (num den : Nat) : Int :=
  let guess : Int := (Nat.log2 num : Int) - (Nat.log2 den : Int) - 52
  -- the quotient has 53 or 52 bits before the point on this grid
  let (n, d) := power 2 guess
  let exact := if num * d < den * n * leading then guess - 1 else guess
  max exact (-1074)

/-- The double nearest to `num / den`; `none` when that is too large to be finite. -/
def round? (num den : Nat) : Option Binary64 :=
  if num = 0 then some ⟨0, -1074⟩
  else
    let q := grid num den
    let (n, d) := power 2 q
    let m := roundDiv (num * d) (den * n)
    -- rounding up may carry into the next power of two
    let (m, q) := if m = 2 * leading then (leading, q + 1) else (m, q)
    if 971 < q then none else some ⟨m, q⟩

/-- The double nearest to `digits · 10^exponent`. Exponents far outside the range are settled
without computing the power. -/
def ofDecimal? (digits : Nat) (exponent : Int) : Option Binary64 :=
  if digits = 0 then round? 0 1
  else
    let lead : Int := exponent + (Nat.toDigits 10 digits).length
    if 400 < lead then none
    else if lead < -400 then round? 0 1
    else
      let (n, d) := power 10 exponent
      round? (digits * n) d

/-- The value as a quotient. -/
def fraction (x : Binary64) : Nat × Nat :=
  let (n, d) := power 2 x.q
  (x.m * n, d)

/-- The product of two doubles, rounded. -/
def mul? (x y : Binary64) : Option Binary64 :=
  let (a, b) := x.fraction
  let (c, d) := y.fraction
  round? (a * c) (b * d)

/-- The quotient of two doubles, rounded; the divisor is positive. -/
def div? (x y : Binary64) : Option Binary64 :=
  let (a, b) := x.fraction
  let (c, d) := y.fraction
  round? (a * d) (b * c)

/-- The ends of the interval of numbers that round to a double, in units of `2^(q - 2)`. -/
def interval (x : Binary64) : Nat × Nat :=
  -- just below a power of two the doubles lie twice as close
  let low := if x.m = leading ∧ -1074 < x.q then 1 else 2
  (4 * x.m - low, 4 * x.m + 2)

/-- Whether `c · 10^p` rounds to a double: it lies between the ends of the interval, or on one
of them when `m` is even. -/
def covers (x : Binary64) (c : Nat) (p : Int) : Bool :=
  let (low, high) := x.interval
  let (n, d) := power 2 (x.q - 2)
  let (tn, td) := power 10 p
  let value := c * tn * d
  let low := low * n * td
  let high := high * n * td
  if x.m % 2 = 0 then decide (low ≤ value) && decide (value ≤ high)
  else decide (low < value) && decide (value < high)

/-- The exponent `k` with `10^(k-1) ≤ value < 10^k`, found near an estimate from the binary
exponent. -/
def decimalLead (x : Binary64) : Int :=
  let (a, b) := x.fraction
  -- `30103 / 100000` is just above the decimal logarithm of two
  let guess : Int := (((Nat.log2 x.m : Int) + x.q) * 30103) / 100000 - 1
  let below (k : Int) : Bool :=
    let (n, d) := power 10 k
    decide (a * d < b * n)
  ([0, 1, 2, 3].find? fun i => below (guess + i)).elim (guess + 4) (guess + ·)

/-- The point of the grid `10^p` that reads back as a double, the nearer one if both
neighbours do. -/
def onGrid? (x : Binary64) (p : Int) : Option Nat :=
  let (a, b) := x.fraction
  let (n, d) := power 10 p
  let num := a * d
  let den := b * n
  let down := num / den
  let up := down + 1
  let nearer := if 2 * (num % den) ≤ den then [down, up] else [up, down]
  nearer.find? fun c => x.covers c p

/-- The shortest decimal that reads back as a double that is not zero: the coarsest grid with
a hit, down to seventeen digits. -/
def shortest (x : Binary64) : Nat × Int :=
  if x.m = 0 then (0, 0)
  else
    let k := x.decimalLead
    let grids := (List.range 17).map fun (i : Nat) => k - (i + 1)
    match grids.findSome? fun p => (x.onGrid? p).map fun c => (c, p) with
    | some hit => hit
    | none => (0, 0)

/-- The double with a sign, as a decimal. -/
def toDecimal (negative : Bool) (x : Binary64) : Decimal :=
  let (c, p) := x.shortest
  Decimal.normal negative c p

end Binary64

/-- The double nearest to a decimal, as a decimal; `none` when it is not finite. -/
def Decimal.ofParts? (negative : Bool) (digits : Nat) (exponent : Int) : Option Decimal :=
  (Binary64.ofDecimal? digits exponent).map (Binary64.toDecimal negative)

end Chartkeeper
