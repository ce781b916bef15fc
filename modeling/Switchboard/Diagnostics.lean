import Switchboard.Registrar
import Switchboard.Text.Quoted

/-!
# Diagnostic texts

How types, values, declarations and commands are shown to a developer. Unlike
the texts for users these name the kind of everything, quote every text, and
leave out handlers.
-/

namespace Switchboard

open Text (quoted quotedChar bracketed)

/-- Named fields between braces, after the name of what has them. -/
def fieldsText (name : String) (fields : List (String × String)) (rest : Bool) : String :=
  let shown := fields.map fun field => field.1 ++ ": " ++ field.2
  name ++ " \x7b " ++ ", ".intercalate (if rest then shown ++ [".."] else shown) ++ " \x7d"

/-- Something that may be absent. -/
def optionText : Option String → String
  | none => "None"
  | some text => "Some(" ++ text ++ ")"

namespace Scalar

/-- The name of the kind of a scalar. -/
def kindText : Scalar → String
  | string => "Str"
  | char => "Char"
  | bool => "Bool"
  | int .i8 => "I8"
  | int .i16 => "I16"
  | int .i32 => "I32"
  | int .i64 => "I64"
  | int .u8 => "U8"
  | int .u16 => "U16"
  | int .u32 => "U32"
  | int .u64 => "U64"
  | float .single => "F32"
  | float .double => "F64"

/-- A content between quotes if it is text, a number with its fraction if it is a float. -/
def diagnostic : (s : Scalar) → s.Carrier → String
  | string, x => quoted x
  | char, x => quotedChar x
  | bool, x => Scalar.bool.text x
  | int k, x => (Scalar.int k).text x
  | float _, x => String.ofList (FloatKind.write FloatKind.diagnosticLayout x)

end Scalar

namespace ParamType

def diagnostic : ParamType → String
  | builtin s => s.kindText
  | custom tag => "Custom(" ++ quoted tag ++ ")"

end ParamType

namespace Value

def diagnostic : Value → String
  | null => "Null"
  | scalar s x => s.kindText ++ "(" ++ s.diagnostic x ++ ")"
  | custom inst => "Custom(Custom<" ++ inst.tag ++ ">)"

end Value

namespace DeclaredDefault

def diagnostic : DeclaredDefault → String
  | null => "Null"
  | text content => "Text(" ++ quoted content ++ ")"

end DeclaredDefault

namespace Declaration

def diagnostic (d : Declaration) : String :=
  fieldsText "ParamDecl"
    [("ty", d.type.diagnostic), ("default", optionText (d.default?.map DeclaredDefault.diagnostic))]
    false

end Declaration

namespace Parameter

def diagnostic (p : Parameter) : String :=
  fieldsText "ParameterSpec"
    [("ty", p.type.diagnostic), ("required", if p.isRequired then "true" else "false"),
      ("default", optionText (p.default?.map Value.diagnostic))]
    false

end Parameter

variable {σ : Type}

namespace CommandSpec

def diagnostic (spec : CommandSpec σ) : String :=
  fieldsText "CommandSpec"
    [("name", quoted spec.name), ("parent", bracketed (spec.parent.map quoted)),
      ("aliases", bracketed (spec.aliases.map quoted)),
      ("params", bracketed (spec.declarations.map Declaration.diagnostic))]
    true

end CommandSpec

namespace Command

def diagnostic (c : Command σ) : String :=
  fieldsText "Command"
    [("name", quoted c.name), ("parameters", bracketed (c.parameters.map Parameter.diagnostic)),
      ("required_boundary", toString c.boundary)]
    true

end Command

namespace ParserRegistry

/-- The names of the types that parsers were registered for, in order of code points. -/
def diagnostic (r : ParserRegistry) : String :=
  let names := sortBy (fun a b => (compare a b).isLE) (r.custom.keys.map ParamType.name)
  fieldsText "ParserRegistry" [("custom", bracketed (names.map quoted))] false

end ParserRegistry

end Switchboard
