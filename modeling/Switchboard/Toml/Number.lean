import Switchboard.Number.Decimal
import Switchboard.Toml.Lexeme

/-!
# Numbers of TOML

Whole numbers in four bases and floating-point numbers, with underscores
between digits. A text may have the form of a number and yet no value: it is
too great, or it has no digits, or, behind an underscore, other characters than
digits. That is a fault only where the value is asked for.
-/

namespace Switchboard.Toml

/-- A number of a document. -/
inductive Number where
  | integer (n : Int)
  | float (x : FloatKind.double.Bits)
  /-- Formed like a number, but without a value. -/
  | valueless
deriving DecidableEq, Repr

namespace Number

/-- Whole numbers must fit into 128 bits, with a sign or without. -/
def ofInt? : Option Int → Number
  | some n =>
    if -Int.ofNat (twoTo 127) ≤ n ∧ n < Int.ofNat (twoTo 128) then integer n else valueless
  | none => valueless

/-- A decimal number must not be rounded to infinity. -/
def ofDecimal (x : FloatKind.double.Bits) : Number :=
  if FloatKind.isInfinite x then valueless else float x

def hasValue : Number → Bool
  | valueless => false
  | _ => true

end Number

/-! ### Underscores -/

/-- Whether each underscore stands between two digits, if what comes before is a digit or not. -/
def underscoresFitAfter (isDigit : Char → Bool) : (afterDigit : Bool) → List Char → Bool
  | _, [] => true
  | afterDigit, c :: cs =>
    if c = '_' then afterDigit && cs.head?.any isDigit && underscoresFitAfter isDigit false cs
    else underscoresFitAfter isDigit (isDigit c) cs

/-- Whether each underscore stands between two digits. -/
def underscoresFit (isDigit : Char → Bool) (cs : List Char) : Bool :=
  underscoresFitAfter isDigit false cs

def dropUnderscores (cs : List Char) : List Char :=
  cs.filter (· != '_')

/-! ### Whole numbers -/

/-- Underscores may stand beside the digits of the largest base, whatever the base. -/
def isAnyDigit (c : Char) : Bool :=
  (hexValue? c).isSome

/-- The number that digits of a base stand for; there must be one. -/
def natInBase? (base : Nat) (digits : List Char) : Option Nat :=
  match digits.mapM hexValue? with
  | some [] => none
  | some values => some (values.foldl (fun sofar v => base * sofar + v) 0)
  | none => none

/-- What follows the mark of a base: digits of the base, perhaps none. -/
def inBase? (base : Nat) (cs : List Char) : Option Number :=
  let digits := dropUnderscores cs
  let inRange := digits.all fun c => (hexValue? c).any (· < base)
  if inRange && underscoresFit isAnyDigit cs then
    some (.ofInt? ((natInBase? base digits).map Int.ofNat))
  else none

/-- A decimal whole number after its sign. It may not start with a needless zero. -/
def whole? (sign : List Char) (cs : List Char) : Option Number :=
  match cs with
  | [] => none
  | '0' :: _ :: _ => none
  | _ =>
    if underscoresFit isAnyDigit cs then
      some (.ofInt? (intOfDigits? true (sign ++ dropUnderscores cs)))
    else none

/-! ### Floating-point numbers -/

/-- What follows the digits that a text starts with; there must be one. -/
def afterDigits? (cs : List Char) : Option (List Char) :=
  if (cs.takeWhile Char.isDigit).isEmpty then none else some (cs.dropWhile Char.isDigit)

/-- What follows a fraction, which may be left out. -/
def afterFraction? : List Char → Option (List Char)
  | '.' :: cs => afterDigits? cs
  | cs => some cs

/-- A sign and what follows it. -/
def splitSign : List Char → List Char × List Char
  | '+' :: cs => (['+'], cs)
  | '-' :: cs => (['-'], cs)
  | cs => ([], cs)

def isExponentMark (c : Char) : Bool :=
  c == 'e' || c == 'E'

/-- Whether a text is an exponent or empty. -/
def isExponent : List Char → Bool
  | [] => true
  | mark :: cs => isExponentMark mark && afterDigits? (splitSign cs).2 == some []

/-- Whether a text is digits with a fraction and an exponent, either of which may be left out. -/
def isDecimal (cs : List Char) : Bool :=
  ((afterDigits? cs).bind afterFraction?).any isExponent

/-- A decimal number with a fraction or an exponent, after its sign. It may not start with a
needless zero. -/
def decimal? (sign : List Char) (cs : List Char) : Option Number :=
  let digits := dropUnderscores cs
  let padded := cs.head? == some '0' && 1 < (digits.takeWhile Char.isDigit).length
  if isDecimal digits && !padded && underscoresFit Char.isDigit cs then
    (FloatKind.double.read? (sign ++ digits)).map .ofDecimal
  else none

/-! ### Reading -/

/-- A number after its sign. A point or an exponent mark behind the first digits makes it a
floating-point number, and an underscore a whole number whatever follows. -/
def unsigned? (sign cs : List Char) : Option Number :=
  let rest := cs.dropWhile Char.isDigit
  if cs = ['i', 'n', 'f'] ∨ cs = ['n', 'a', 'n'] then
    (FloatKind.double.read? (sign ++ cs)).map .float
  else if rest.contains ' ' then none
  else if rest.any (fun c => c == '.' || isExponentMark c) then decimal? sign cs
  else if rest.isEmpty || rest.head? == some '_' then whole? sign cs
  else none

/-- A number of any kind. -/
def number? : List Char → Option Number
  | '0' :: 'x' :: cs => inBase? 16 cs
  | '0' :: 'o' :: cs => inBase? 8 cs
  | '0' :: 'b' :: cs => inBase? 2 cs
  | cs => unsigned? (splitSign cs).1 (splitSign cs).2

end Switchboard.Toml
