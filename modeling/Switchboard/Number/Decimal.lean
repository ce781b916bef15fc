import Switchboard.Number.Whole
import Switchboard.Number.Binary

/-!
# Decimal text of floating-point numbers

A floating-point number is read from a decimal numeral with an optional point
and exponent, or from a word for infinity or for no number, and is rounded to
the nearest number of its kind.
-/

namespace Switchboard

/-- A decimal numeral without its sign: a coefficient times a power of ten. -/
structure Numeral where
  coefficient : Nat
  exponent : Int
deriving DecidableEq, Repr

namespace Numeral

/-- Digits before and after the point; at least one is needed in all. -/
def ofMantissa? (cs : List Char) : Option Numeral :=
  let whole := cs.takeWhile Char.isDigit
  let fraction :=
    match cs.dropWhile Char.isDigit with
    | '.' :: ds => some ds
    | [] => some []
    | _ :: _ => none
  match fraction with
  | some ds =>
    if ds.all Char.isDigit && !(whole.isEmpty && ds.isEmpty) then
      some ⟨Nat.ofDigitChars 10 (whole ++ ds) 0, -(ds.length : Int)⟩
    else none
  | none => none

/-- A numeral with an optional exponent part. -/
def read? (cs : List Char) : Option Numeral :=
  let isMark := fun c => c == 'e' || c == 'E'
  match cs.dropWhile (!isMark ·) with
  | [] => ofMantissa? cs
  | _ :: ds => do
    let mantissa ← ofMantissa? (cs.takeWhile (!isMark ·))
    let shift ← intOfDigits? true ds
    return ⟨mantissa.coefficient, mantissa.exponent + shift⟩

/-- The position of the leading digit: the numeral is below ten to this power. -/
def leading (x : Numeral) : Int :=
  (Nat.toDigits 10 x.coefficient).length + x.exponent

end Numeral

namespace FloatKind

variable (k : FloatKind)

/-- Numerals whose leading digit lies beyond this are infinite, below its opposite zero. -/
def decimalReach : Int := 400

/-- The magnitude nearest to a numeral. -/
def roundNumeral (x : Numeral) : Nat :=
  if x.coefficient = 0 ∨ x.leading < -decimalReach then 0
  else if decimalReach < x.leading then k.infinity
  else
    k.roundQuotient (x.coefficient * tenTo x.exponent.toNat * twoTo k.scale)
      (tenTo (-x.exponent).toNat)

/-- The magnitude a word or numeral stands for. -/
def readMagnitude? (cs : List Char) : Option Nat :=
  let word := cs.map Char.toLower
  if word = ['i', 'n', 'f'] ∨ word = ['i', 'n', 'f', 'i', 'n', 'i', 't', 'y'] then
    some k.infinity
  else if word = ['n', 'a', 'n'] then some k.notANumber
  else (Numeral.read? cs).map k.roundNumeral

/-- Read a number of the kind, after an optional sign. -/
def read? : List Char → Option k.Bits
  | '-' :: cs => (k.readMagnitude? cs).map (k.withSign true)
  | '+' :: cs => (k.readMagnitude? cs).map (k.withSign false)
  | cs => (k.readMagnitude? cs).map (k.withSign false)

end FloatKind

end Switchboard
