import Switchboard.Parsers

/-!
# Parsers that keep to their types

The built-in parsers return values of the type asked for. A custom parser may
return any value; one that keeps to its tag returns instances of the type it
was registered for and nothing else.

* `KeepsTo`: a parser returns values of one custom type only
* `accepts_of_parse`: with such parsers, what is parsed as a type is accepted by it
* `faithful_register`: registering such a parser keeps a registry so
-/

namespace Switchboard

/-- Every value that a parser returns is one of the custom type with a tag. -/
def Parser.KeepsTo (parser : Parser) (tag : String) : Prop :=
  ∀ input v, parser input = .ok v → (ParamType.custom tag).accepts v = true

namespace ParserRegistry

/-- Every parser that is asked for a custom type keeps to it. Those registered for built-in types
are not asked. -/
def Faithful (r : ParserRegistry) : Prop :=
  ∀ tag parser, r.custom.find? (.custom tag) = some parser → parser.KeepsTo tag

variable {r : ParserRegistry}

theorem accepts_of_parse (h : r.Faithful) {input : String} {type : ParamType} {v : Value}
    (hv : r.parse input type = .ok v) : type.accepts v = true := by
  cases type with
  | builtin s =>
    have htype := typeOf_of_parse_builtin hv
    exact (ParamType.accepts_iff (.builtin s) v).mpr htype
  | custom tag =>
    rw [parse] at hv
    split at hv
    next parser hfind => exact h tag parser hfind input v hv
    next => cases hv

theorem faithful_empty : empty.Faithful := by
  intro tag parser h
  cases h

theorem faithful_register (h : r.Faithful) {type : ParamType} {parser : Parser}
    (hparser : ∀ tag, type = .custom tag → parser.KeepsTo tag) :
    (r.register type parser).Faithful := by
  intro tag other hother
  have hfind : (r.register type parser).custom.find? (.custom tag) =
      if type = .custom tag then some parser else r.custom.find? (.custom tag) :=
    Table.find?_insert r.custom type (.custom tag) parser
  rw [hfind] at hother
  split at hother
  next htype =>
    rw [← Option.some.inj hother]
    exact hparser tag htype
  next => exact h tag other hother

end ParserRegistry

end Switchboard
