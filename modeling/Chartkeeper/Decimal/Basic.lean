/-!
# Decimal numbers

A finite decimal `± digits · 10^exponent`, the form in which numbers with a fraction are kept:
the digits are those of the shortest decimal that reads back as the same double, so two
doubles differ exactly when their decimals do, and minus zero keeps its sign.
-/

namespace Chartkeeper

/-- The number `digits · 10^exponent`, or its opposite. -/
structure Decimal where
  negative : Bool
  digits : Nat
  exponent : Int
  deriving DecidableEq, Repr, Inhabited

namespace Decimal

/-- Zero, with a sign. -/
def zero (negative : Bool) : Decimal := ⟨negative, 0, 0⟩

/-- Removes trailing zeros, at most `fuel` of them. -/
def strip (fuel digits : Nat) (exponent : Int) : Nat × Int :=
  match fuel with
  | 0 => (digits, exponent)
  | fuel + 1 =>
    if digits % 10 = 0 then strip fuel (digits / 10) (exponent + 1) else (digits, exponent)

/-- The decimal of this value whose last digit is not zero. -/
def normal (negative : Bool) (digits : Nat) (exponent : Int) : Decimal :=
  if digits = 0 then zero negative
  else
    let (d, e) := strip (Nat.toDigits 10 digits).length digits exponent
    ⟨negative, d, e⟩

/-- How a format writes the exponent of a number far from one. -/
structure Style where
  /-- Written before the digits of an exponent that is not negative. -/
  exponentSign : String
  deriving DecidableEq, Repr

/-- Exponents carry their sign: `1e+21`, `1e-7`. -/
def Style.signed : Style := ⟨"+"⟩

/-- Exponents carry a sign only when negative: `1e21`, `1e-7`. -/
def Style.plain : Style := ⟨""⟩

/-- The magnitude of a decimal with these digits, whose leading digit stands for
`10^lead`. Between `10^-5` and `10^16` the point is written in place, with at least one digit
on each side; elsewhere it follows the leading digit and an exponent comes after. -/
def magnitude (style : Style) (ds : List Char) (lead : Int) : List Char :=
  if -5 ≤ lead && lead ≤ 15 then
    if lead < 0 then
      '0' :: '.' :: (List.replicate (-lead - 1).toNat '0' ++ ds)
    else
      let whole := lead.toNat + 1
      let front := ds.take whole ++ List.replicate (whole - ds.length) '0'
      let back := ds.drop whole
      front ++ '.' :: (if back.isEmpty then ['0'] else back)
  else
    let front := ds.take 1
    let back := ds.drop 1
    let sign := if lead < 0 then "-" else style.exponentSign
    front ++ (if back.isEmpty then [] else '.' :: back)
      ++ 'e' :: (sign.toList ++ Nat.toDigits 10 lead.natAbs)

def text (style : Style) (d : Decimal) : String :=
  let ds := Nat.toDigits 10 d.digits
  let lead : Int := if d.digits = 0 then 0 else d.exponent + ds.length - 1
  String.ofList ((if d.negative then ['-'] else []) ++ magnitude style ds lead)

end Decimal

end Chartkeeper
