import Switchboard.Parsers
import Switchboard.Spec
import Switchboard.StableSort

/-!
# Registration

Commands are registered in groups, all or nothing. Every specification of a
group is first staged: its names are checked and its defaults read, without a
look at the tree. The staged commands are then put into a copy of the tree,
those with shorter parent paths first, and the copy replaces the tree when
every command found its parent.

* `length_parameters`: a staged command has a parameter for each declaration
* `le_antisymm`: commands that may come in either order have one rank
* `parsers_register`: registering commands leaves the parsers alone
-/

namespace Switchboard

/-- Why a group could not be registered. -/
inductive RegistrationError where
  | missingParent (command parent : String)
  | invalidName (name : String)
  | noOwner (group source : String)
  | noParser (command : String) (type : ParamType)
  | invalidDefault (command : String) (source : ParseError)
deriving DecidableEq, Repr

namespace RegistrationError

def message : RegistrationError → String
  | missingParent command parent => s!"Missing parent node '{parent}' for command '{command}'"
  | invalidName name => s!"Invalid command name: '{name}'"
  | noOwner group source => s!"No instance of command group '{group}' could be created: {source}"
  | noParser command type =>
    s!"No parser for type '{type.name}' to pre-parse a default of command '{command}'"
  | invalidDefault command source =>
    s!"Invalid default value for command '{command}': {source.message}"

end RegistrationError

/-! ### Staging -/

/-- A command that is ready to be put below its parent. -/
structure Staged (σ : Type) where
  parent : List String
  aliases : List String
  command : Command σ

variable {σ : Type}

/-- Refuse what is no valid name. -/
def checkName (name : String) : Except RegistrationError Unit :=
  if isValidName name then .ok () else .error (.invalidName name)

namespace Declaration

/-- The value a declared default stands for. Null needs no parser. -/
def readDefault (parsers : ParserRegistry) (command : String) (d : Declaration) :
    Except RegistrationError (Option Value) :=
  match d.default? with
  | none => .ok none
  | some .null => .ok (some .null)
  | some (.text content) =>
    if parsers.has d.type then
      match parsers.parse content d.type with
      | .ok v => .ok (some v)
      | .error e => .error (.invalidDefault command e)
    else .error (.noParser command d.type)

/-- The parameter a declaration of the trailing run makes. -/
def parameter (d : Declaration) : Option Value → Parameter
  | some v => .defaultable d.type v
  | none => .required d.type

/-- The parameters of declarations with their defaults read. Only the unbroken trailing run
of defaults counts; a parameter before a required one is required too. -/
def parameters (ds : List Declaration) (defaults : List (Option Value)) : List Parameter :=
  let cut := upToLast Option.isNone defaults
  (ds.take cut).map (fun d => .required d.type) ++
    List.zipWith parameter (ds.drop cut) (defaults.drop cut)

theorem length_parameters {ds : List Declaration} {defaults : List (Option Value)}
    (h : defaults.length = ds.length) : (parameters ds defaults).length = ds.length := by
  have hle := upToLast_le_length Option.isNone defaults
  simp only [parameters, List.length_append, List.length_map, List.length_take,
    List.length_zipWith, List.length_drop]
  omega

end Declaration

namespace CommandSpec

/-- Check the names of a specification and read its defaults. The first fault is the answer:
the name, then the aliases and then the parameters in order of declaration. -/
def stage (parsers : ParserRegistry) (spec : CommandSpec σ) :
    Except RegistrationError (Staged σ) := do
  checkName spec.name
  spec.aliases.forM checkName
  let defaults ← spec.declarations.mapM (Declaration.readDefault parsers spec.name)
  return ⟨spec.parent, spec.aliases,
    ⟨spec.name, Declaration.parameters spec.declarations defaults, spec.handler⟩⟩

end CommandSpec

/-! ### Insertion -/

/-- What the order of insertion goes by: the depth, then the lower-cased parent path, then the
lower-cased name. -/
structure InsertionRank where
  depth : Nat
  path : String
  name : String
deriving DecidableEq, Repr

namespace InsertionRank

/-- Depth decides before path, and path before name. -/
def compareRanks : InsertionRank → InsertionRank → Ordering :=
  compareLex (compareOn InsertionRank.depth)
    (compareLex (compareOn InsertionRank.path) (compareOn InsertionRank.name))

instance : Std.TransCmp compareRanks :=
  inferInstanceAs (Std.TransCmp (compareLex _ _))

/-- Whether a command of the first rank may be inserted before one of the second. -/
def le (a b : InsertionRank) : Bool :=
  (compareRanks a b).isLE

theorem le_trans (a b c : InsertionRank) (hab : a.le b = true) (hbc : b.le c = true) :
    a.le c = true :=
  Std.TransCmp.isLE_trans hab hbc

theorem le_total (a b : InsertionRank) : (a.le b || b.le a) = true := by
  have hswap : compareRanks a b = (compareRanks b a).swap := Std.OrientedCmp.eq_swap
  simp only [le, hswap]
  cases compareRanks b a <;> rfl

theorem le_self (a : InsertionRank) : a.le a = true := by
  have h := le_total a a
  simpa using h

theorem eq_of_compareRanks {a b : InsertionRank} (h : compareRanks a b = .eq) : a = b := by
  obtain ⟨depth, path, name⟩ := a
  obtain ⟨depth', path', name'⟩ := b
  simp only [compareRanks, compareLex, compareOn, Ordering.then_eq_eq] at h
  obtain ⟨hd, hp, hn⟩ := h
  simp [Std.LawfulEqCmp.eq_of_compare hd, Std.LawfulEqCmp.eq_of_compare hp,
    Std.LawfulEqCmp.eq_of_compare hn]

/-- Two ranks of which each may come first are one rank. -/
theorem le_antisymm {a b : InsertionRank} (hab : a.le b = true) (hba : b.le a = true) :
    a = b := by
  apply eq_of_compareRanks
  have hswap : compareRanks a b = (compareRanks b a).swap := Std.OrientedCmp.eq_swap
  simp only [le] at hab hba
  cases hc : compareRanks b a <;> simp_all

end InsertionRank

namespace Staged

def rank (s : Staged σ) : InsertionRank :=
  ⟨s.parent.length, Text.lower (" ".intercalate s.parent), Text.lower s.command.name⟩

/-- Put a command below its parent. -/
def attach (root : Node σ) (s : Staged σ) : Except RegistrationError (Node σ) :=
  match root.updateAt? (·.addChild s.aliases (.leaf s.command)) s.parent with
  | some changed => .ok changed
  | none => .error (.missingParent s.command.name (root.firstMissing s.parent))

end Staged

/-! ### The registrar -/

/-- The tree as built so far, with the parsers known. -/
structure Registrar (σ : Type) where
  root : Node σ
  parsers : ParserRegistry

namespace Registrar

def empty : Registrar σ :=
  ⟨.root, .empty⟩

def registerParser (r : Registrar σ) (type : ParamType) (parser : Parser) : Registrar σ :=
  { r with parsers := r.parsers.register type parser }

/-- The tree with a staged group put in. -/
def attachAll (root : Node σ) (staged : List (Staged σ)) : Except RegistrationError (Node σ) :=
  (sortOn InsertionRank.le Staged.rank staged).foldlM Staged.attach root

/-- Register a group, all or nothing. -/
def register (r : Registrar σ) (specs : List (CommandSpec σ)) :
    Except RegistrationError (Registrar σ) := do
  let staged ← specs.mapM (CommandSpec.stage r.parsers)
  let root ← attachAll r.root staged
  return { r with root }

/-- Register the commands of an owner that has to be made first. -/
def registerGroup (r : Registrar σ) (group : String)
    (owner : Except String (List (CommandSpec σ))) : Except RegistrationError (Registrar σ) :=
  match owner with
  | .ok specs => r.register specs
  | .error source => .error (.noOwner group source)

theorem parsers_register {r next : Registrar σ} {specs : List (CommandSpec σ)}
    (h : r.register specs = .ok next) : next.parsers = r.parsers := by
  simp only [register, bind, Except.bind] at h
  split at h
  · simp at h
  · split at h
    · simp at h
    · simp only [pure, Except.pure, Except.ok.injEq] at h
      rw [← h]

end Registrar

end Switchboard
