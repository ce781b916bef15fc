import Switchboard.Number.Power

/-!
# Whole numbers of fixed width

The eight kinds of whole numbers a parameter may have, the range of each, and
their decimal text: digits after an optional sign, where a minus sign is open
to the signed kinds only.

* `natOfDigits?_eq_some_iff`: the runs of digits that are read as a number
* `natOfDigits?_toDigits`, `read?_text`: what is written reads back
-/

namespace Switchboard

/-- A kind of whole numbers: signed or not, with its width in bits. -/
inductive IntKind where
  | i8 | i16 | i32 | i64 | u8 | u16 | u32 | u64
deriving DecidableEq, Repr

namespace IntKind

def isSigned : IntKind → Bool
  | i8 | i16 | i32 | i64 => true
  | u8 | u16 | u32 | u64 => false

def bits : IntKind → Nat
  | i8 | u8 => 8
  | i16 | u16 => 16
  | i32 | u32 => 32
  | i64 | u64 => 64

/-- The least number of the kind. -/
def least (k : IntKind) : Int :=
  if k.isSigned then -Int.ofNat (twoTo (k.bits - 1)) else 0

/-- The greatest number of the kind. -/
def greatest (k : IntKind) : Int :=
  if k.isSigned then Int.ofNat (twoTo (k.bits - 1)) - 1 else Int.ofNat (twoTo k.bits) - 1

/-- Whether a number is of the kind. -/
def Holds (k : IntKind) (n : Int) : Prop :=
  k.least ≤ n ∧ n ≤ k.greatest

instance (k : IntKind) (n : Int) : Decidable (k.Holds n) :=
  inferInstanceAs (Decidable (_ ∧ _))

/-- The numbers of the kind. -/
abbrev Range (k : IntKind) : Type :=
  { n : Int // k.Holds n }

theorem least_eq_zero {k : IntKind} (h : k.isSigned = false) : k.least = 0 := by
  simp [least, h]

theorem Holds.nonneg {k : IntKind} {n : Int} (h : k.Holds n) (hs : k.isSigned = false) :
    0 ≤ n := by
  have := h.1
  rwa [least_eq_zero hs] at this

end IntKind

/-! ### Decimal text -/

/-- The number written by a non-empty run of decimal digits. -/
def natOfDigits? (cs : List Char) : Option Nat :=
  if !cs.isEmpty && cs.all Char.isDigit then some (Nat.ofDigitChars 10 cs 0) else none

theorem natOfDigits?_eq_some_iff {cs : List Char} {n : Nat} :
    natOfDigits? cs = some n ↔
      cs ≠ [] ∧ (∀ c ∈ cs, c.isDigit = true) ∧ Nat.ofDigitChars 10 cs 0 = n := by
  have hall : (!cs.isEmpty && cs.all Char.isDigit) = true ↔
      cs ≠ [] ∧ ∀ c ∈ cs, c.isDigit = true := by
    rw [Bool.and_eq_true, Bool.not_eq_true', List.isEmpty_eq_false_iff, List.all_eq_true]
  rw [natOfDigits?, Option.ite_none_right_eq_some, hall, Option.some.injEq, and_assoc]

theorem natOfDigits?_toDigits (n : Nat) : natOfDigits? (Nat.toDigits 10 n) = some n :=
  natOfDigits?_eq_some_iff.mpr ⟨Nat.toDigits_ne_nil,
    fun _ hc => Nat.isDigit_of_mem_toDigits (by omega) (by omega) hc,
    Nat.ofDigitChars_ten_toDigits⟩

/-- A whole number in decimal. -/
def intDigits : Int → List Char
  | .ofNat n => Nat.toDigits 10 n
  | .negSucc n => '-' :: Nat.toDigits 10 (n + 1)

/-- Read a sign and digits. A minus sign is refused unless `signed`. -/
def intOfDigits? (signed : Bool) : List Char → Option Int
  | '+' :: cs => (natOfDigits? cs).map Int.ofNat
  | '-' :: cs => if signed then (natOfDigits? cs).map fun n => -Int.ofNat n else none
  | cs => (natOfDigits? cs).map Int.ofNat

/-- Without signs of their own, the texts of numbers are digits after an optional plus sign. -/
theorem intOfDigits?_eq_some_iff {cs : List Char} {n : Int} :
    intOfDigits? false cs = some n ↔
      ∃ digits m, (cs = digits ∨ cs = '+' :: digits) ∧ natOfDigits? digits = some m ∧
        Int.ofNat m = n := by
  constructor
  · intro h
    unfold intOfDigits? at h
    split at h
    next digits =>
      obtain ⟨m, hm, hn⟩ := Option.map_eq_some_iff.mp h
      exact ⟨digits, m, .inr rfl, hm, hn⟩
    next => simp at h
    next =>
      obtain ⟨m, hm, hn⟩ := Option.map_eq_some_iff.mp h
      exact ⟨cs, m, .inl rfl, hm, hn⟩
  · rintro ⟨digits, m, rfl | rfl, hm, rfl⟩
    · have hdigits := (natOfDigits?_eq_some_iff.mp hm).2.1
      unfold intOfDigits?
      split
      next => exact absurd (hdigits _ List.mem_cons_self) (by decide)
      next => exact absurd (hdigits _ List.mem_cons_self) (by decide)
      next =>
        rw [hm]
        rfl
    · rw [intOfDigits?, hm]
      rfl

theorem toDigits_head_isDigit {n : Nat} {c : Char} {cs : List Char}
    (h : Nat.toDigits 10 n = c :: cs) : c.isDigit = true :=
  Nat.isDigit_of_mem_toDigits (b := 10) (n := n) (by omega) (by omega) (by simp [h])

theorem intOfDigits?_toDigits (signed : Bool) (n : Nat) :
    intOfDigits? signed (Nat.toDigits 10 n) = some (Int.ofNat n) := by
  have hread := natOfDigits?_toDigits n
  unfold intOfDigits?
  split
  next cs he => exact absurd (toDigits_head_isDigit he) (by decide)
  next cs he => exact absurd (toDigits_head_isDigit he) (by decide)
  next => simp [hread]

theorem intOfDigits?_intDigits {signed : Bool} {n : Int} (h : signed = true ∨ 0 ≤ n) :
    intOfDigits? signed (intDigits n) = some n := by
  cases n with
  | ofNat n => exact intOfDigits?_toDigits signed n
  | negSucc n =>
    have hs : signed = true := h.resolve_right (by omega)
    subst hs
    simp only [intDigits, intOfDigits?, natOfDigits?_toDigits, if_true, Option.map_some]
    rfl

namespace IntKind

variable (k : IntKind)

/-- Read a number of the kind; a number outside its range is refused. -/
def read? (cs : List Char) : Option k.Range :=
  match intOfDigits? k.isSigned cs with
  | some n => if h : k.Holds n then some ⟨n, h⟩ else none
  | none => none

/-- Write a number of the kind. -/
def text (n : k.Range) : List Char :=
  intDigits n.val

theorem read?_text (n : k.Range) : k.read? (k.text n) = some n := by
  have hn : k.isSigned = true ∨ 0 ≤ n.val := by
    cases hs : k.isSigned with
    | true => exact .inl rfl
    | false => exact .inr (n.property.nonneg hs)
  simp only [read?, text, intOfDigits?_intDigits hn, n.property, dite_true]

end IntKind

end Switchboard
