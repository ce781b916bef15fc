import Switchboard.Table
import Switchboard.Value

/-!
# Parsers of words

Each built-in type has one parser, which nothing replaces. Parsers of custom
types are kept in a registry; one that is registered for a built-in type is
kept too, and never asked.

* `parse_builtin`: a built-in type is read by its own parser
* `parse_register_of_ne`: a registration is felt at its own type only
* `typeOf_of_parse_builtin`: what a built-in parser returns has the type asked for
-/

namespace Switchboard

/-- Why a text could not be read as a type asks. -/
structure ParseError where
  reason : String
  input : String
deriving DecidableEq, Repr

namespace ParseError

def message (e : ParseError) : String :=
  s!"{e.reason}: '{e.input}'"

end ParseError

/-! ### Built-in types -/

namespace Scalar

/-- What is said of a text that is none of the type's. -/
def refusal : Scalar → String
  | string => "not a string"
  | char => "not a single character"
  | bool => "not a boolean"
  | int _ => "not a number"
  | float _ => "not a number"

/-- The content that a text stands for. -/
def read? : (s : Scalar) → String → Option s.Carrier
  | string, input => some input
  | char, input =>
    match input.toList with
    | [c] => some c
    | _ => none
  | bool, input =>
    let word := input.toList.map Char.toLower
    if word = ['t', 'r', 'u', 'e'] then some true
    else if word = ['f', 'a', 'l', 's', 'e'] then some false
    else none
  | int k, input => k.read? input.toList
  | float k, input => k.read? input.toList

/-- Read a text as a scalar. -/
def parse (s : Scalar) (input : String) : Except ParseError s.Carrier :=
  match s.read? input with
  | some x => .ok x
  | none => .error ⟨s.refusal, input⟩

end Scalar

/-! ### The registry -/

/-- A parser of a custom type. -/
abbrev Parser := String → Except ParseError Value

/-- The parsers that were registered, by type. -/
structure ParserRegistry where
  custom : Table ParamType Parser

namespace ParserRegistry

def empty : ParserRegistry := ⟨.empty⟩

/-- Register the parser of a type, in place of an earlier one. -/
def register (r : ParserRegistry) (type : ParamType) (parser : Parser) : ParserRegistry :=
  ⟨r.custom.insert type parser⟩

/-- Whether a text can be offered as a value of the type at all. -/
def has (r : ParserRegistry) (type : ParamType) : Bool :=
  type.isBuiltin || r.custom.contains type

/-- Read a text as a value of the type. -/
def parse (r : ParserRegistry) (input : String) : ParamType → Except ParseError Value
  | .builtin s => (s.parse input).map (Value.scalar s)
  | .custom tag =>
    match r.custom.find? (.custom tag) with
    | some parser => parser input
    | none => .error ⟨s!"no parser for type '{tag}'", input⟩

theorem parse_builtin (r : ParserRegistry) (input : String) (s : Scalar) :
    r.parse input (.builtin s) = (s.parse input).map (Value.scalar s) := rfl

theorem typeOf_of_parse_builtin {r : ParserRegistry} {input : String} {s : Scalar} {v : Value}
    (h : r.parse input (.builtin s) = .ok v) : v.typeOf? = some (.builtin s) := by
  rw [parse_builtin] at h
  cases hp : s.parse input with
  | error e => simp [hp, Except.map] at h
  | ok x =>
    simp only [hp, Except.map, Except.ok.injEq] at h
    rw [← h]
    rfl

theorem parse_register_self (r : ParserRegistry) (input tag : String) (parser : Parser) :
    (r.register (.custom tag) parser).parse input (.custom tag) = parser input := by
  simp [register, parse, Table.find?_insert_self]

theorem parse_register_of_ne (r : ParserRegistry) (input : String) {type other : ParamType}
    (parser : Parser) (h : type ≠ other) :
    (r.register type parser).parse input other = r.parse input other := by
  cases other with
  | builtin s => rfl
  | custom tag => simp [register, parse, Table.find?_insert_of_ne _ _ h]

/-- A parser registered for a built-in type is never asked. -/
theorem parse_register_builtin (r : ParserRegistry) (input : String) (s : Scalar)
    (parser : Parser) (type : ParamType) :
    (r.register (.builtin s) parser).parse input type = r.parse input type := by
  cases type with
  | builtin t => rfl
  | custom tag => exact parse_register_of_ne r input parser (by simp)

theorem has_register (r : ParserRegistry) (type other : ParamType) (parser : Parser) :
    (r.register type parser).has other = (decide (type = other) || r.has other) := by
  by_cases h : type = other
  · simp [register, has, Table.contains, Table.find?_insert, h]
  · simp [register, has, Table.contains, Table.find?_insert, h]

end ParserRegistry

end Switchboard
