import Switchboard.Trailing
import Switchboard.Value

/-!
# Binding of arguments

A chain binds values to the parameters of one command, strictly in order of
declaration. Once the required ones are bound it can be completed: what is
left is filled with the defaults.

* `offer_eq_ok_iff`: a value is bound when there is a next parameter and its type accepts it
* `length_complete`: a complete vector has one value for each parameter
-/

namespace Switchboard

/-- A declared parameter. A default is stored for the members of the trailing run that may be
left out. -/
structure Parameter where
  type : ParamType
  isRequired : Bool
  default? : Option Value

namespace Parameter

def required (type : ParamType) : Parameter :=
  ⟨type, true, none⟩

def defaultable (type : ParamType) (value : Value) : Parameter :=
  ⟨type, false, some value⟩

/-- The value of a parameter that was not bound. -/
def fallback (p : Parameter) : Value :=
  p.default?.getD .null

/-- The number of parameters up to the last required one. -/
def boundary (parameters : List Parameter) : Nat :=
  upToLast Parameter.isRequired parameters

theorem boundary_le (parameters : List Parameter) : boundary parameters ≤ parameters.length :=
  upToLast_le_length _ _

end Parameter

/-- Why a value could not be bound, or the vector not completed. -/
inductive ChainError where
  | full (capacity : Nat)
  | typeMismatch (expected : ParamType) (found : Option ParamType)
  | missingRequired (bound required : Nat)
deriving DecidableEq, Repr

namespace ChainError

/-- The name of a type, or of null. -/
def typeName : Option ParamType → String
  | some type => type.name
  | none => "null"

def message : ChainError → String
  | full capacity => s!"no more parameters allowed (capacity {capacity})"
  | typeMismatch expected found =>
    s!"invalid type, expected {expected.name} but was {typeName found}"
  | missingRequired bound required =>
    s!"not all required parameters are satisfied ({bound} of {required})"

end ChainError

/-- The values bound so far to the parameters of a command. -/
structure Chain where
  parameters : List Parameter
  /-- The number of values that must be bound; never more than there are parameters. -/
  boundary : Nat
  bound : List Value

namespace Chain

/-- A chain with nothing bound. A boundary beyond the last parameter is cut to their number. -/
def start (parameters : List Parameter) (boundary : Nat) : Chain :=
  ⟨parameters, min boundary parameters.length, []⟩

/-- The index of the next parameter to bind. -/
def cursor (c : Chain) : Nat :=
  c.bound.length

/-- Whether values are missing before the vector can be completed. -/
def requiresFurther (c : Chain) : Bool :=
  c.cursor < c.boundary

/-- Whether another value can be bound. -/
def acceptsFurther (c : Chain) : Bool :=
  c.cursor < c.parameters.length

/-- The type of the next parameter. -/
def nextType? (c : Chain) : Option ParamType :=
  c.parameters[c.cursor]?.map Parameter.type

/-! ### Binding -/

/-- Add a value behind those bound. -/
def push (c : Chain) (v : Value) : Chain :=
  { c with bound := c.bound ++ [v] }

/-- Bind a value to the next parameter, if there is one and its type accepts the value. -/
def offer (c : Chain) (v : Value) : Except ChainError Chain :=
  match c.nextType? with
  | none => .error (.full c.parameters.length)
  | some expected =>
    if expected.accepts v then .ok (c.push v) else .error (.typeMismatch expected v.typeOf?)

theorem offer_eq_ok_iff (c next : Chain) (v : Value) :
    c.offer v = .ok next ↔
      (∃ type, c.nextType? = some type ∧ type.accepts v = true) ∧ c.push v = next := by
  unfold offer
  cases c.nextType? with
  | none => simp
  | some type => by_cases ha : type.accepts v <;> simp [ha]

/-- Bind values one by one, up to the first that is refused; what was bound stays bound. -/
def offerAll (c : Chain) : List Value → Option ChainError × Chain
  | [] => (none, c)
  | v :: vs =>
    match c.offer v with
    | .ok next => next.offerAll vs
    | .error e => (some e, c)

/-- Bind all values, or fail as the first that is refused does. -/
def bindAll (c : Chain) (vs : List Value) : Except ChainError Chain :=
  match c.offerAll vs with
  | (none, next) => .ok next
  | (some e, _) => .error e

/-! ### Completion -/

/-- The values bound, followed by the defaults of the parameters left. -/
def complete (c : Chain) : Except ChainError Args :=
  if c.requiresFurther then .error (.missingRequired c.cursor c.boundary)
  else .ok ⟨c.bound ++ (c.parameters.drop c.cursor).map Parameter.fallback⟩

theorem complete_eq_ok_iff (c : Chain) (args : Args) :
    c.complete = .ok args ↔
      c.boundary ≤ c.cursor ∧
        ⟨c.bound ++ (c.parameters.drop c.cursor).map Parameter.fallback⟩ = args := by
  unfold complete requiresFurther
  by_cases h : c.cursor < c.boundary
  · simp [h, Nat.not_le.mpr h]
  · simp [h, Nat.not_lt.mp h]

theorem length_complete {c : Chain} {args : Args} (h : c.complete = .ok args)
    (hc : c.cursor ≤ c.parameters.length) : args.length = c.parameters.length := by
  obtain ⟨_, rfl⟩ := (complete_eq_ok_iff c args).mp h
  simp only [cursor] at hc
  simp only [Args.length, cursor, List.length_append, List.length_map, List.length_drop]
  omega

end Chain

end Switchboard
