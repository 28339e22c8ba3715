/-!
# Words

Bounds of the whole numbers that words of 32, 64 and 128 bits hold, without a sign and with one.
-/

namespace Chartkeeper.Word

/-- The first number that 32 bits no longer hold. -/
def bound32 : Nat := 4294967296

/-- The first number that 64 bits no longer hold. -/
def bound64 : Nat := 18446744073709551616

/-- The first number that 128 bits no longer hold. -/
def bound128 : Nat := 340282366920938463463374607431768211456

/-- The first number that 64 bits with a sign no longer hold; its opposite is the least. -/
def half64 : Nat := 9223372036854775808

/-- The first number that 128 bits with a sign no longer hold; its opposite is the least. -/
def half128 : Nat := 170141183460469231731687303715884105728

end Chartkeeper.Word
