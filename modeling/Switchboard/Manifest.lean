import Switchboard.Dispatcher
import Switchboard.Template

/-!
# Command manifests

A manifest declares commands without code: each replies with a template. Its
parameters have built-in types or the type of the session, which is the only
custom type a manifest may name.

* `validate_eq_ok_iff`: what a valid manifest is
-/

namespace Switchboard

/-- The tag of the type of sessions. -/
def sessionTag : String := "session"

/-- The context of a user's session. -/
def sessionValue (user : String) (serial : Nat) : Value :=
  .custom ⟨sessionTag, serial, .session user⟩

/-- Aliases as a list, or as one text with commas. -/
inductive AliasEntry where
  | list (names : List String)
  | joined (text : String)
deriving DecidableEq, Repr

namespace AliasEntry

def names : AliasEntry → List String
  | list names => names
  | joined text => splitAliases text

end AliasEntry

/-- A declared parameter of a manifest command. -/
structure ParamEntry where
  type : String
  default? : Option String
deriving DecidableEq, Repr

/-- A command of a manifest. -/
structure CommandEntry where
  name : String
  parent : List String
  aliases : AliasEntry
  params : List ParamEntry
  reply? : Option String
deriving DecidableEq, Repr

/-- A manifest: the prompt of interactive use, and the commands. -/
structure Manifest where
  prompt : String
  commands : List CommandEntry
deriving DecidableEq, Repr

/-- Why a manifest could not be loaded. -/
inductive ManifestError where
  | unreadable (path : String)
  | malformed (path : String)
  | invalid (message : String)
deriving DecidableEq, Repr

namespace ManifestError

def message : ManifestError → String
  | unreadable path => s!"Failed to read manifest '{path}'"
  | malformed path => s!"Failed to parse manifest '{path}'"
  | invalid message => s!"Manifest validation failed: {message}"

end ManifestError

/-! ### Validation -/

namespace ParamEntry

def paramType (p : ParamEntry) : ParamType :=
  .ofName p.type

/-- Whether the named type is built in or the type of the session. -/
def isKnown (p : ParamEntry) : Bool :=
  p.paramType.isBuiltin || p.paramType.name == sessionTag

end ParamEntry

namespace CommandEntry

/-- The first fault of a command: its name, then the type of a parameter. -/
def fault? (c : CommandEntry) : Option String :=
  if !isValidName c.name then some s!"Invalid command name '{c.name}'"
  else
    (c.params.find? (!·.isKnown)).map fun p =>
      s!"Unknown parameter type '{p.type}' in command '{c.name}'"

end CommandEntry

namespace Manifest

/-- The prompt where none is set. -/
def defaultPrompt : String := "> "

/-- The manifest without commands. -/
def empty : Manifest := ⟨defaultPrompt, []⟩

/-- Check the names of commands and the types of parameters. Aliases and parents are checked
when the commands are registered. -/
def validate (m : Manifest) : Except ManifestError Unit :=
  match m.commands.findSome? CommandEntry.fault? with
  | some message => .error (.invalid message)
  | none => .ok ()

theorem validate_eq_ok_iff (m : Manifest) :
    m.validate = .ok () ↔
      ∀ c ∈ m.commands, isValidName c.name = true ∧ ∀ p ∈ c.params, p.isKnown = true := by
  unfold validate
  constructor
  · intro h c hc
    split at h
    · simp at h
    next hf =>
      have := List.findSome?_eq_none_iff.mp hf c hc
      simp only [CommandEntry.fault?] at this
      split at this
      · simp at this
      next hn =>
        simp only [Option.map_eq_none_iff, List.find?_eq_none] at this
        exact ⟨by simpa using hn, fun p hp => by simpa using this p hp⟩
  · intro h
    have hf : m.commands.findSome? CommandEntry.fault? = none := by
      refine List.findSome?_eq_none_iff.mpr fun c hc => ?_
      obtain ⟨hn, hp⟩ := h c hc
      have hnone : c.params.find? (!·.isKnown) = none :=
        List.find?_eq_none.mpr fun p hm => by simp [hp p hm]
      simp [CommandEntry.fault?, hn, hnone]
    rw [hf]

end Manifest

/-! ### Commands -/

/-- A reply is added to those sent before. -/
def replyHandler (entry : CommandEntry) : Handler (List String) := fun args sent =>
  let line :=
    match entry.reply? with
    | some template => Template.render template args
    | none => entry.name ++ " " ++ args.text
  (.done, sent ++ [line])

namespace ParamEntry

def declaration (p : ParamEntry) : Declaration :=
  ⟨p.paramType, p.default?.map .ofText⟩

end ParamEntry

namespace CommandEntry

def spec (entry : CommandEntry) : CommandSpec (List String) where
  name := entry.name
  parent := entry.parent
  aliases := entry.aliases.names
  declarations := entry.params.map ParamEntry.declaration
  handler := replyHandler entry

end CommandEntry

namespace Manifest

def specs (m : Manifest) : List (CommandSpec (List String)) :=
  m.commands.map CommandEntry.spec

/-- Register all commands of a manifest as one group. -/
def register (m : Manifest) : Except RegistrationError (Registrar (List String)) :=
  Registrar.empty.register m.specs

end Manifest

end Switchboard
