import Switchboard.Number.Shortest
import Switchboard.Text.Blank

/-!
# Types of parameters

A parameter has one of the built-in scalar types or a custom type, which is
known by its tag only. Types are named in text; several spellings lead to one
built-in type, and every other name is the tag of a custom type.

* `Scalar.ofSpelling?_name`: every scalar is found under its own name
-/

namespace Switchboard

/-- The built-in types. -/
inductive Scalar where
  | string
  | char
  | bool
  | int (kind : IntKind)
  | float (kind : FloatKind)
deriving DecidableEq, Repr

namespace IntKind

def name : IntKind → String
  | i8 => "i8"
  | i16 => "i16"
  | i32 => "i32"
  | i64 => "i64"
  | u8 => "u8"
  | u16 => "u16"
  | u32 => "u32"
  | u64 => "u64"

end IntKind

namespace FloatKind

def name : FloatKind → String
  | single => "f32"
  | double => "f64"

end FloatKind

namespace Scalar

/-- What a value of the type holds. -/
abbrev Carrier : Scalar → Type
  | string => String
  | char => Char
  | bool => Bool
  | int k => k.Range
  | float k => k.Bits

def name : Scalar → String
  | string => "string"
  | char => "char"
  | bool => "bool"
  | int k => k.name
  | float k => k.name

/-- The spellings of the built-in types, in lower case. -/
def spellings : List (String × Scalar) :=
  [("string", string), ("str", string), ("char", char), ("bool", bool), ("boolean", bool),
    ("byte", int .i8), ("i8", int .i8), ("short", int .i16), ("i16", int .i16),
    ("int", int .i32), ("integer", int .i32), ("i32", int .i32), ("long", int .i64),
    ("i64", int .i64), ("u8", int .u8), ("u16", int .u16), ("u32", int .u32), ("u64", int .u64),
    ("float", float .single), ("f32", float .single), ("double", float .double),
    ("f64", float .double)]

/-- The scalar that a lower-case name spells. -/
def ofSpelling? (name : String) : Option Scalar :=
  spellings.lookup name

theorem ofSpelling?_name (s : Scalar) : ofSpelling? s.name = some s := by
  cases s with
  | string => rfl
  | char => rfl
  | bool => rfl
  | int k => cases k <;> rfl
  | float k => cases k <;> rfl

end Scalar

/-- The type of a parameter. -/
inductive ParamType where
  | builtin (scalar : Scalar)
  | custom (tag : String)
deriving DecidableEq, Repr

namespace ParamType

/-- A type name with white space dropped from its ends and ASCII letters in lower case. -/
def normalise (name : String) : String :=
  String.ofList ((Text.trimBy Text.isBlank name.toList).map Char.toLower)

/-- The type a text names: a scalar under any of its spellings, else a custom type. -/
def ofName (name : String) : ParamType :=
  match Scalar.ofSpelling? (normalise name) with
  | some scalar => builtin scalar
  | none => custom (normalise name)

def name : ParamType → String
  | builtin scalar => scalar.name
  | custom tag => tag

def isBuiltin : ParamType → Bool
  | builtin _ => true
  | custom _ => false

end ParamType

end Switchboard
