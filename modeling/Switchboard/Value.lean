import Switchboard.ParamType

/-!
# Values

A bound argument, a default or a context: a scalar, an instance of a custom
type, or the explicit absence of a value.

Scalars are equal by content, floating-point numbers as numbers. Instances of
custom types are opaque: two are equal when they are the same instance, which
a serial number identifies within its tag, whatever they hold.

* `accepts_iff`: a type accepts the values whose type it is, so null never
* `eq_self`: a value equals itself unless it is no number
* `typeOf_eq_of_eq`: equal values have one type
-/

namespace Switchboard

/-- What an instance of a custom type holds: a text, or the user of a session. -/
inductive Payload where
  | text (content : String)
  | session (user : String)
deriving DecidableEq, Repr

/-- An instance of a custom type. -/
structure Instance where
  tag : String
  serial : Nat
  payload : Payload
deriving DecidableEq, Repr

inductive Value where
  | null
  | scalar (type : Scalar) (content : type.Carrier)
  | custom (inst : Instance)

namespace Scalar

/-- Equality of contents: of numbers as numbers, else of what is held. -/
def same : (s : Scalar) → s.Carrier → s.Carrier → Bool
  | string, x, y => x == y
  | char, x, y => x == y
  | bool, x, y => x == y
  | int _, x, y => x == y
  | float _, x, y => FloatKind.sameNumber x y

/-- Whether a content differs even from itself. -/
def isNaN : (s : Scalar) → s.Carrier → Bool
  | float _, x => FloatKind.isNaN x
  | _, _ => false

theorem same_self (s : Scalar) (x : s.Carrier) : s.same x x = !s.isNaN x := by
  cases s with
  | string => exact beq_self_eq_true x
  | char => exact beq_self_eq_true x
  | bool => exact beq_self_eq_true x
  | int k => exact beq_self_eq_true x
  | float k => exact FloatKind.sameNumber_self x

/-- The text of a content. -/
def text : (s : Scalar) → s.Carrier → String
  | string, x => x
  | char, x => String.singleton x
  | bool, x => if x then "true" else "false"
  | int k, x => String.ofList (k.text x)
  | float _, x => String.ofList (FloatKind.text x)

end Scalar

namespace Value

/-- An argument of type string. -/
abbrev ofString (s : String) : Value :=
  scalar .string s

/-- The type of a value; null has none. -/
def typeOf? : Value → Option ParamType
  | null => none
  | scalar type _ => some (.builtin type)
  | custom inst => some (.custom inst.tag)

/-- The name of a value's type, or of null. -/
def typeName (v : Value) : String :=
  match v.typeOf? with
  | some type => type.name
  | none => "null"

/-! ### Equality -/

def eq : Value → Value → Bool
  | null, null => true
  | scalar s x, scalar t y => if h : t = s then s.same x (h ▸ y) else false
  | custom a, custom b => a.tag == b.tag && a.serial == b.serial
  | _, _ => false

instance : BEq Value := ⟨eq⟩

/-- Whether a value is a floating-point number that is none. -/
def isNaN : Value → Bool
  | scalar s x => s.isNaN x
  | _ => false

theorem eq_self (v : Value) : (v == v) = !v.isNaN := by
  cases v with
  | null => rfl
  | scalar s x =>
    show (if h : s = s then s.same x (h ▸ x) else false) = !s.isNaN x
    simp [Scalar.same_self]
  | custom inst =>
    show (inst.tag == inst.tag && inst.serial == inst.serial) = true
    simp

theorem typeOf_eq_of_eq {v w : Value} (h : (v == w) = true) : v.typeOf? = w.typeOf? := by
  change eq v w = true at h
  cases v with
  | null => cases w <;> simp [eq] at h ⊢
  | scalar s x =>
    cases w with
    | null => simp [eq] at h
    | scalar t y =>
      by_cases ht : t = s
      · subst ht; rfl
      · simp [eq, ht] at h
    | custom inst => simp [eq] at h
  | custom a =>
    cases w with
    | null => simp [eq] at h
    | scalar t y => simp [eq] at h
    | custom b =>
      simp only [eq, Bool.and_eq_true, beq_iff_eq] at h
      simp [typeOf?, h.1]

/-! ### Reading -/

/-- The content of a value as a scalar of the given type. -/
def as? (type : Scalar) : Value → Option type.Carrier
  | scalar t x => if h : t = type then some (h ▸ x) else none
  | _ => none

theorem as?_scalar (s : Scalar) (x : s.Carrier) : (scalar s x).as? s = some x := by
  simp [as?]

/-- Read a value that may be null. -/
def asOptional? (type : Scalar) : Value → Option (Option type.Carrier)
  | null => some none
  | v => (v.as? type).map some

def asString? (v : Value) : Option String :=
  v.as? .string

/-- The payload of an instance of a custom type. -/
def payload? : Value → Option Payload
  | custom inst => some inst.payload
  | _ => none

/-- The text of a value. An instance of a custom type shows its tag only. -/
def text : Value → String
  | null => "null"
  | scalar s x => s.text x
  | custom inst => "<" ++ inst.tag ++ ">"

end Value

namespace ParamType

/-- Whether a parameter of the type can hold a value. -/
def accepts (type : ParamType) (v : Value) : Bool :=
  v.typeOf? == some type

theorem accepts_iff (type : ParamType) (v : Value) :
    type.accepts v = true ↔ v.typeOf? = some type := by
  simp [accepts]

theorem accepts_null (type : ParamType) : type.accepts .null = false := by
  simp [accepts, Value.typeOf?]

theorem accepts_builtin_iff (s : Scalar) (v : Value) :
    (builtin s).accepts v = true ↔ ∃ x, v = .scalar s x := by
  rw [accepts_iff]
  cases v with
  | null => simp [Value.typeOf?]
  | scalar t x =>
    constructor
    · intro h
      obtain rfl : t = s := by simpa [Value.typeOf?] using h
      exact ⟨x, rfl⟩
    · rintro ⟨y, hy⟩
      rw [hy]
      rfl
  | custom inst => simp [Value.typeOf?]

end ParamType

/-! ### Arguments -/

/-- The values handed to a handler, one for each parameter. -/
structure Args where
  values : List Value

namespace Args

def length (args : Args) : Nat :=
  args.values.length

def value? (args : Args) (index : Nat) : Option Value :=
  args.values[index]?

/-- The argument at an index as a scalar of the given type. -/
def get? (args : Args) (type : Scalar) (index : Nat) : Option type.Carrier :=
  (args.value? index).bind (·.as? type)

/-- The argument at an index, which may be null, as a scalar of the given type. -/
def getOptional? (args : Args) (type : Scalar) (index : Nat) : Option (Option type.Carrier) :=
  (args.value? index).bind (·.asOptional? type)

/-- Why a handler cannot have the argument it asks for. -/
inductive Missing where
  | absent (index : Nat)
  | mismatch (index : Nat) (found : Value) (expected : Scalar)

/-- The argument at an index as a scalar of the given type, or why there is none. -/
def require (args : Args) (type : Scalar) (index : Nat) : Except Missing type.Carrier :=
  match args.value? index with
  | none => .error (.absent index)
  | some v =>
    match v.as? type with
    | some x => .ok x
    | none => .error (.mismatch index v type)

/-- The wording handlers know the scalar types by; it differs from their names for text. -/
def Missing.expectation : Scalar → String
  | .string => "alloc::string::String"
  | s => s.name

def Missing.message : Missing → String
  | absent index => s!"argument {index} is missing"
  | mismatch index found expected =>
    s!"argument {index} has type {found.typeName}, expected {expectation expected}"

/-- The texts of the arguments between brackets. -/
def text (args : Args) : String :=
  "[" ++ ", ".intercalate (args.values.map Value.text) ++ "]"

/-- Equality argument by argument. -/
def eq (a b : Args) : Bool :=
  a.values == b.values

instance : BEq Args := ⟨eq⟩

end Args

end Switchboard
