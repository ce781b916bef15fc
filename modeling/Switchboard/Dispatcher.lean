import Switchboard.Registrar
import Switchboard.Text.Words

/-!
# Dispatch of a line

A line is resolved word by word, from left to right. A word is read as an
argument while the present command has a parameter left, required or not; only
then is it looked up as a command below. Going down, the values bound so far
are carried along, and the context is put first where the first parameter
takes it.

* `walk_append`: further words are taken from where the ones before them lead
* `walk_append_of_error`: a fault is found at the first word that shows it
-/

namespace Switchboard

/-- Why a line could not be dispatched. -/
inductive DispatchError where
  | emptyInput
  | noMatchingCommand (word : String)
  | tooFewArguments (line : String)
  | parse (source : ParseError)
  | incompatibleArguments (command : String) (source : ChainError)
  | handler (command source : String)
  | aborted
deriving DecidableEq, Repr

namespace DispatchError

def message : DispatchError → String
  | emptyInput => "No empty input allowed"
  | noMatchingCommand word => s!"No matching command found: '{word}'"
  | tooFewArguments line => s!"Too few arguments: '{line}'"
  | parse source => s!"Invalid argument: {source.message}"
  | incompatibleArguments command source =>
    s!"Arguments do not fit command '{command}': {source.message}"
  | handler command source => s!"Command '{command}' failed: {source}"
  | aborted => "Dispatch task aborted"

/-- The part of the line that a failure is about. -/
def input? : DispatchError → Option String
  | emptyInput => some ""
  | noMatchingCommand word => some word
  | tooFewArguments line => some line
  | parse source => some source.input
  | incompatibleArguments _ _ => none
  | handler _ _ => none
  | aborted => none

/-- A stable word for the kind of failure. -/
def kind : DispatchError → String
  | emptyInput => "empty_input"
  | noMatchingCommand _ => "no_matching_command"
  | tooFewArguments _ => "too_few_arguments"
  | parse _ => "parse_error"
  | incompatibleArguments _ _ => "incompatible_arguments"
  | handler _ _ => "handler_error"
  | aborted => "aborted"

end DispatchError

/-! ### Entering a command -/

namespace Chain

/-- Whether the first carried value is the context. -/
def carriesContext (carry : List Value) (context : Option Value) : Bool :=
  match carry, context with
  | first :: _, some ctx => first == ctx
  | _, _ => false

/-- Whether the next parameter takes the context. -/
def takesContext (c : Chain) (context : Option Value) : Bool :=
  match c.nextType?, context with
  | some type, some ctx => type.accepts ctx
  | _, _ => false

/-- The values a command is entered with: the context comes first where the first parameter
takes it, once, and is dropped from the carried values where it does not. -/
def entryValues (c : Chain) (carry : List Value) (context : Option Value) : List Value :=
  if c.takesContext context then
    if carriesContext carry context then carry else context.toList ++ carry
  else
    if carriesContext carry context then carry.tail else carry

/-- Seed the chain of a command that is entered. -/
def seed (c : Chain) (carry : List Value) (context : Option Value) : Except ChainError Chain :=
  if !c.acceptsFurther && carry.isEmpty then .ok c
  else c.bindAll (c.entryValues carry context)

end Chain

/-- Where a resolution stands: at a command, with values bound. -/
structure Place (σ : Type) where
  node : Node σ
  command : Command σ
  chain : Chain

/-- A line resolved to a command and all its arguments. -/
structure Resolved (σ : Type) where
  node : Node σ
  command : Command σ
  args : Args

variable {σ : Type}

namespace Node

/-- The child a word leads to, with its command. -/
def child (n : Node σ) (word : String) : Except DispatchError (Node σ × Command σ) :=
  match n.find? word with
  | none => .error (.noMatchingCommand word)
  | some node =>
    match node.command? with
    | none => .error (.noMatchingCommand word)
    | some command => .ok (node, command)

/-- Enter the command below a node that a word leads to. -/
def enter (n : Node σ) (context : Option Value) (carry : List Value) (word : String) :
    Except DispatchError (Place σ) :=
  match n.child word with
  | .error e => .error e
  | .ok (node, command) =>
    match command.chain.seed carry context with
    | .error e => .error (.incompatibleArguments command.name e)
    | .ok chain => .ok ⟨node, command, chain⟩

end Node

namespace Place

/-- Bind a word to a parameter of the given type. -/
def bind (p : Place σ) (parsers : ParserRegistry) (type : ParamType) (word : String) :
    Except DispatchError (Place σ) :=
  match parsers.parse word type with
  | .error e => .error (.parse e)
  | .ok v =>
    match p.chain.offer v with
    | .error e => .error (.incompatibleArguments p.command.name e)
    | .ok chain => .ok { p with chain }

/-- Take one word: an argument while a parameter is left, else a command below. -/
def step (parsers : ParserRegistry) (context : Option Value) (p : Place σ) (word : String) :
    Except DispatchError (Place σ) :=
  match p.chain.nextType? with
  | some type => p.bind parsers type word
  | none => p.node.enter context p.chain.bound word

/-- The answer at the end of a line. -/
def settle (p : Place σ) (line : String) : Except DispatchError (Resolved σ) :=
  if p.chain.requiresFurther then .error (.tooFewArguments line)
  else
    match p.chain.complete with
    | .error e => .error (.incompatibleArguments p.command.name e)
    | .ok args => .ok ⟨p.node, p.command, args⟩

end Place

/-! ### The dispatcher -/

/-- A finished tree, with the parsers that read arguments. -/
structure Dispatcher (σ : Type) where
  root : Node σ
  parsers : ParserRegistry

/-- How a dispatch ended. -/
inductive Completion where
  | finished (result : Except DispatchError Unit)
  | panicked

/-- Finish building; the tree does not change from here on. -/
def Registrar.finish (r : Registrar σ) : Dispatcher σ :=
  ⟨r.root, r.parsers⟩

namespace Resolved

/-- Run the handler on the arguments. -/
def execute (r : Resolved σ) (state : σ) : Completion × σ :=
  match r.command.handler r.args state with
  | (.done, after) => (.finished (.ok ()), after)
  | (.failed source, after) => (.finished (.error (.handler r.command.name source)), after)
  | (.panicked, after) => (.panicked, after)

end Resolved

namespace Dispatcher

def registerParser (d : Dispatcher σ) (type : ParamType) (parser : Parser) : Dispatcher σ :=
  { d with parsers := d.parsers.register type parser }

/-- Where the words of a line lead. -/
def walk (d : Dispatcher σ) (context : Option Value) :
    List String → Except DispatchError (Place σ)
  | [] => .error .emptyInput
  | first :: rest => do
    let start ← d.root.enter context [] first
    rest.foldlM (Place.step d.parsers context) start

/-- Resolve a line to a command and all its arguments. -/
def resolve (d : Dispatcher σ) (context : Option Value) (line : String) :
    Except DispatchError (Resolved σ) := do
  let place ← d.walk context (Text.wordsOf line)
  place.settle line

/-- Resolve a line and run the handler. -/
def dispatch (d : Dispatcher σ) (context : Option Value) (line : String) (state : σ) :
    Completion × σ :=
  match d.resolve context line with
  | .error e => (.finished (.error e), state)
  | .ok resolved => resolved.execute state

theorem walk_append (d : Dispatcher σ) (context : Option Value) {words : List String}
    (more : List String) (h : words ≠ []) :
    d.walk context (words ++ more) =
      d.walk context words >>= fun place => more.foldlM (Place.step d.parsers context) place := by
  cases words with
  | nil => exact absurd rfl h
  | cons first rest =>
    simp only [List.cons_append, walk, List.foldlM_append]
    cases d.root.enter context [] first with
    | error e => rfl
    | ok start => rfl

/-- A fault at some word is the answer whatever follows. -/
theorem walk_append_of_error {d : Dispatcher σ} {context : Option Value} {words : List String}
    {e : DispatchError} (more : List String) (hw : words ≠ [])
    (h : d.walk context words = .error e) : d.walk context (words ++ more) = .error e := by
  rw [walk_append d context more hw, h]
  rfl

end Dispatcher

end Switchboard
