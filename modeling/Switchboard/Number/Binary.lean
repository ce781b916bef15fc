import Switchboard.Number.Power

/-!
# Binary floating-point numbers

The two floating-point kinds a parameter may have, as bit patterns of the IEEE
754 interchange formats. A finite magnitude is a multiple of the smallest
positive number of its kind, and the magnitudes without their sign, read as
natural numbers, are ordered as the numbers they stand for.

* `roundHalfEven`: the nearest whole number to a quotient, a tie to the even one
* `roundQuotient`: the nearest magnitude to a quotient of natural numbers
-/

namespace Switchboard

/-- A floating-point kind. -/
inductive FloatKind where
  | single
  | double
deriving DecidableEq, Repr

namespace FloatKind

/-- Bits of a significand, the leading one included. -/
def precision : FloatKind → Nat
  | single => 24
  | double => 53

/-- Bits of the exponent field. -/
def exponentBits : FloatKind → Nat
  | single => 8
  | double => 11

/-- Bits of a number. -/
def width : FloatKind → Nat
  | single => 32
  | double => 64

/-- The smallest positive number is two to the minus this. -/
def scale : FloatKind → Nat
  | single => 149
  | double => 1074

/-- Significant decimal digits that always suffice to tell two numbers apart. -/
def decimalDigits : FloatKind → Nat
  | single => 9
  | double => 17

/-- The bit patterns of the kind. -/
abbrev Bits (k : FloatKind) : Type :=
  BitVec k.width

variable (k : FloatKind)

/-- The pattern of infinity, sign left out. -/
def infinity : Nat :=
  (twoTo k.exponentBits - 1) * twoTo (k.precision - 1)

/-- The pattern of the number that is none, sign left out. -/
def notANumber : Nat :=
  k.infinity + twoTo (k.precision - 2)

/-- Put a sign before a magnitude. -/
def withSign (negative : Bool) (magnitude : Nat) : k.Bits :=
  BitVec.ofNat k.width (magnitude + if negative then twoTo (k.width - 1) else 0)

variable {k}

def isNegative (x : k.Bits) : Bool :=
  x.msb

/-- The pattern without its sign. -/
def magnitude (x : k.Bits) : Nat :=
  x.toNat % twoTo (k.width - 1)

def isNaN (x : k.Bits) : Bool :=
  k.infinity < magnitude x

def isInfinite (x : k.Bits) : Bool :=
  magnitude x == k.infinity

/-- Equality of numbers: both zeros are one number, and what is no number equals nothing. -/
def sameNumber (x y : k.Bits) : Bool :=
  !isNaN x && !isNaN y && (x == y || (magnitude x == 0 && magnitude y == 0))

theorem sameNumber_self (x : k.Bits) : sameNumber x x = !isNaN x := by
  simp [sameNumber]

/-! ### Rounding -/

/-- The whole number nearest to `a / b`, the even one of two. -/
def roundHalfEven (a b : Nat) : Nat :=
  let quotient := a / b
  let rest := 2 * (a % b)
  if b < rest ∨ (rest = b ∧ quotient % 2 = 1) then quotient + 1 else quotient

variable (k)

/-- The exponent above the least one at which `a / b` has a significand of full width. -/
def exponentOf (a b : Nat) : Nat :=
  let low := a.log2 - b.log2 - k.precision
  if twoTo k.precision ≤ a / (b * twoTo low) then low + 1 else low

/-- The magnitude nearest to `a / b` of the smallest positive numbers of the kind; infinity
from half a unit above the greatest finite magnitude on. -/
def roundQuotient (a b : Nat) : Nat :=
  let exponent := k.exponentOf a b
  let significand := roundHalfEven a (b * twoTo exponent)
  min k.infinity (exponent * twoTo (k.precision - 1) + significand)

end FloatKind

end Switchboard
