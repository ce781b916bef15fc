import Switchboard.Number.Decimal

/-!
# Shortest decimal text

The text of a floating-point number has the fewest significant digits that
read back to it, and of those the digits nearest to it. Decimal grids are
tried from the coarsest on; on each, the two neighbours of the number are
tested against the interval of quotients that round to it, and of two hits the
nearer one is taken, the upper one on a tie.
-/

namespace Switchboard

/-- A positive quotient and the interval of quotients that round to the same number. All
four are numerators over one denominator. -/
structure Rounding where
  value : Nat
  low : Nat
  high : Nat
  /-- Whether the ends of the interval belong to it. -/
  closed : Bool
  denominator : Nat
deriving DecidableEq, Repr

namespace Rounding

/-- Whether a point of the interval's scale, given over `denominator * down`, lies in it. -/
def covers (x : Rounding) (point down : Nat) : Bool :=
  if x.closed then x.low * down ≤ point && point ≤ x.high * down
  else x.low * down < point && point < x.high * down

/-- The multiple of ten to the power `exponent` in the interval that is nearest to the value. -/
def onGrid? (x : Rounding) (exponent : Int) : Option Numeral :=
  let step := x.denominator * tenTo exponent.toNat
  let down := tenTo (-exponent).toNat
  let below := x.value * down / step
  let rest := x.value * down % step
  match x.covers (below * step) down, x.covers ((below + 1) * step) down with
  | true, true => some ⟨if rest * 2 < step then below else below + 1, exponent⟩
  | true, false => some ⟨below, exponent⟩
  | false, true => some ⟨below + 1, exponent⟩
  | false, false => none

/-- Try grids from ten to the power `exponent` down to finer ones. -/
def onGrids (x : Rounding) : Nat → Int → Numeral
  | 0, exponent =>
    ⟨x.value * tenTo (-exponent).toNat / (x.denominator * tenTo exponent.toNat), exponent⟩
  | fuel + 1, exponent =>
    match x.onGrid? exponent with
    | some numeral => numeral
    | none => x.onGrids fuel (exponent - 1)

/-- The least power of ten above the value. -/
def decimalExponent (x : Rounding) : Int :=
  if x.denominator ≤ x.value then (Nat.toDigits 10 (x.value / x.denominator)).length
  else 1 - (Nat.toDigits 10 ((x.denominator - 1) / x.value)).length

/-- The shortest numeral of the interval. -/
def shortest (x : Rounding) (digits : Nat) : Numeral :=
  x.onGrids (digits + 1) x.decimalExponent

end Rounding

namespace FloatKind

variable (k : FloatKind)

/-- The numbers around a finite positive magnitude, in quarters of the least positive number.
The gap below a power of two is half the gap above it, but for the least exponent. -/
def roundingOf (magnitude : Nat) : Rounding :=
  let unit := twoTo (k.precision - 1)
  let exponent := magnitude / unit - 1
  let significand := magnitude - exponent * unit
  let step := twoTo exponent
  let narrow := significand = unit ∧ 0 < exponent
  { value := 4 * significand * step
    low := 4 * significand * step - if narrow then step else 2 * step
    high := 4 * significand * step + 2 * step
    closed := significand % 2 = 0
    denominator := 4 * twoTo k.scale }

/-- The shortest numeral that rounds to a finite magnitude. -/
def shortestNumeral (magnitude : Nat) : Numeral :=
  if magnitude = 0 then ⟨0, 0⟩ else (k.roundingOf magnitude).shortest k.decimalDigits

end FloatKind

/-! ### Layout -/

namespace Numeral

/-- The numeral with a point where needed and no exponent. -/
def positional (x : Numeral) : List Char :=
  let digits := Nat.toDigits 10 x.coefficient
  if 0 ≤ x.exponent then digits ++ List.replicate x.exponent.toNat '0'
  else
    let places := (-x.exponent).toNat
    let padded := List.replicate (places + 1 - digits.length) '0' ++ digits
    padded.take (padded.length - places) ++ '.' :: padded.drop (padded.length - places)

/-- One digit before the point, and a power of ten. -/
def scientific (x : Numeral) : List Char :=
  let power := intDigits (x.leading - 1)
  match Nat.toDigits 10 x.coefficient with
  | [] => 'e' :: power
  | [d] => d :: 'e' :: power
  | d :: ds => d :: '.' :: ds ++ 'e' :: power

end Numeral

namespace FloatKind

variable {k : FloatKind}

/-- Write a number, given the layout of its shortest numeral. -/
def write (layout : Numeral → List Char) (x : k.Bits) : List Char :=
  if isNaN x then ['N', 'a', 'N']
  else
    let body :=
      if isInfinite x then ['i', 'n', 'f'] else layout (k.shortestNumeral (magnitude x))
    if isNegative x then '-' :: body else body

/-- The text of a number: its shortest numeral without an exponent. -/
def text (x : k.Bits) : List Char :=
  write Numeral.positional x

/-- The layout of diagnostic texts: a fraction is always shown, and numbers from `10 ^ 16` on
and below `10 ^ -4` have an exponent. -/
def diagnosticLayout (x : Numeral) : List Char :=
  if x.coefficient ≠ 0 ∧ (x.leading ≤ -4 ∨ 17 ≤ x.leading) then x.scientific
  else if 0 ≤ x.exponent then x.positional ++ ['.', '0']
  else x.positional

end FloatKind

end Switchboard
