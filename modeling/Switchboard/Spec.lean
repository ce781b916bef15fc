import Switchboard.Name
import Switchboard.Tree

/-!
# Command specifications

What is needed to register a command: its name, the path of its parent, its
aliases, its declared parameters and its handler. A specification is built up
from a name and a handler; the parent path is replaced as a whole, aliases and
parameters are added at the end.
-/

namespace Switchboard

/-- A declared default, before it is read as a value of its type. -/
inductive DeclaredDefault where
  | null
  | text (content : String)
deriving DecidableEq, Repr

namespace DeclaredDefault

/-- The word `null` declares that there is no value, whatever the type. -/
def ofText (content : String) : DeclaredDefault :=
  if content = "null" then null else text content

end DeclaredDefault

/-- A declared parameter. -/
structure Declaration where
  type : ParamType
  default? : Option DeclaredDefault
deriving DecidableEq, Repr

/-- Everything needed to register one command. -/
structure CommandSpec (σ : Type) where
  name : String
  parent : List String
  aliases : List String
  declarations : List Declaration
  handler : Handler σ

namespace CommandSpec

variable {σ : Type}

/-- A top-level command without aliases and parameters. -/
def ofName (name : String) (handler : Handler σ) : CommandSpec σ :=
  ⟨name, [], [], [], handler⟩

/-- Place the command below the path of its ancestors, the topmost first. -/
def under (spec : CommandSpec σ) (path : List String) : CommandSpec σ :=
  { spec with parent := path }

def addAliases (spec : CommandSpec σ) (aliases : List String) : CommandSpec σ :=
  { spec with aliases := spec.aliases ++ aliases }

/-- Add the aliases of a text with commas. -/
def addAliasList (spec : CommandSpec σ) (list : String) : CommandSpec σ :=
  spec.addAliases (splitAliases list)

def addDeclaration (spec : CommandSpec σ) (declaration : Declaration) : CommandSpec σ :=
  { spec with declarations := spec.declarations ++ [declaration] }

/-- Add a parameter that must be supplied. -/
def require (spec : CommandSpec σ) (type : ParamType) : CommandSpec σ :=
  spec.addDeclaration ⟨type, none⟩

/-- Add a parameter with a default text. -/
def defaultTo (spec : CommandSpec σ) (type : ParamType) (content : String) : CommandSpec σ :=
  spec.addDeclaration ⟨type, some (.ofText content)⟩

/-- Add a parameter that is null when it is left out. -/
def defaultToNull (spec : CommandSpec σ) (type : ParamType) : CommandSpec σ :=
  spec.addDeclaration ⟨type, some .null⟩

end CommandSpec

end Switchboard
