/-!
# Command line options

How the words of a command line are read. Options may be given in long form,
in short form, and several short ones in one word; a value follows as the next
word, or after an equals sign, or directly after a short option. A word that
looks like an option is never taken as a value, and there are no other words.
-/

namespace Switchboard.Cli

/-- What a run of the program is asked to do. -/
structure Options where
  manifest? : Option String
  verbosity : Nat
  exec : List String
  user? : Option String
  json : Bool
deriving DecidableEq, Repr

/-- What a command line asks for. -/
inductive Request where
  | run (options : Options)
  | help (long : Bool)
  | version
  | usage
deriving DecidableEq, Repr

/-- The options that take a value. -/
inductive Valued where
  | manifest
  | exec
  | user
deriving DecidableEq, Repr

namespace Options

def default : Options := ⟨none, 0, [], none, false⟩

/-- Give an option its value. Only lines to execute may be given more than once, and a path
must not be empty. -/
def give (o : Options) (option : Valued) (value : String) : Option Options :=
  match option with
  | .manifest =>
    if o.manifest?.isSome || value.isEmpty then none else some { o with manifest? := some value }
  | .exec => some { o with exec := o.exec ++ [value] }
  | .user => if o.user?.isSome then none else some { o with user? := some value }

end Options

/-- What is known after one word. -/
inductive Step where
  | next (options : Options)
  | awaiting (option : Valued) (options : Options)
  | stop (request : Request)

/-- The step after a value was given. -/
def Step.ofGiven : Option Options → Step
  | some options => next options
  | none => stop .usage

/-- Read the letters of a word of short options. -/
def shortOptions (o : Options) : List Char → Step
  | [] => .next o
  | 'v' :: cs => shortOptions { o with verbosity := o.verbosity + 1 } cs
  | 'h' :: _ => .stop (.help false)
  | 'V' :: _ => .stop .version
  | 'm' :: cs => valued .manifest cs
  | 'e' :: cs => valued .exec cs
  | 'u' :: cs => valued .user cs
  | _ :: _ => .stop .usage
where
  /-- The value that follows a short option in its word, if any does. -/
  valued (option : Valued) : List Char → Step
    | [] => .awaiting option o
    | '=' :: cs => .ofGiven (o.give option (String.ofList cs))
    | cs => .ofGiven (o.give option (String.ofList cs))

/-- Read a long option, with the value after its equals sign if there is one. -/
def longOption (o : Options) (name : String) (value? : Option String) : Step :=
  match name, value? with
  | "manifest", some value => .ofGiven (o.give .manifest value)
  | "exec", some value => .ofGiven (o.give .exec value)
  | "user", some value => .ofGiven (o.give .user value)
  | "manifest", none => .awaiting .manifest o
  | "exec", none => .awaiting .exec o
  | "user", none => .awaiting .user o
  | "verbose", none => .next { o with verbosity := o.verbosity + 1 }
  | "json", none => if o.json then .stop .usage else .next { o with json := true }
  | "help", none => .stop (.help true)
  | "version", none => .stop .version
  | _, _ => .stop .usage

/-- Cut the text of a long option at its first equals sign. -/
def splitLong (cs : List Char) : String × Option String :=
  let name := String.ofList (cs.takeWhile (· != '='))
  match cs.dropWhile (· != '=') with
  | [] => (name, none)
  | _ :: value => (name, some (String.ofList value))

/-- Whether a word looks like an option. -/
def isOption (word : String) : Bool :=
  match word.toList with
  | '-' :: _ :: _ => true
  | _ => false

/-- Read one word that is not a value. -/
def readWord (o : Options) (word : String) : Step :=
  match word.toList with
  | '-' :: '-' :: cs => longOption o (splitLong cs).1 (splitLong cs).2
  | '-' :: c :: cs => shortOptions o (c :: cs)
  | _ => .stop .usage

/-- Read words, the first of them perhaps as the value of an option. -/
def readWords (o : Options) (awaited : Option Valued) : List String → Request
  | [] => if awaited.isSome then .usage else .run o
  | word :: words =>
    match awaited with
    | some option =>
      if isOption word then .usage
      else
        match o.give option word with
        | some given => readWords given none words
        | none => .usage
    | none =>
      if word = "--" then if words.isEmpty then .run o else .usage
      else
        match readWord o word with
        | .next next => readWords next none words
        | .awaiting option next => readWords next (some option) words
        | .stop request => request

/-- Read a command line. -/
def parse (words : List String) : Request :=
  readWords .default none words

/-! ### Texts -/

def versionText : String := "linedispatch 0.1.0\n"

/-- The options with what they do. -/
def optionHelp (long : Bool) : List (String × String) :=
  [("-m, --manifest <PATH>", "Command manifest to load"),
    ("-v, --verbose...", "Increase verbosity (-v, -vv, -vvv)"),
    ("-e, --exec <LINE>", "Dispatch LINE and exit instead of reading stdin (repeatable)"),
    ("-u, --user <NAME>", "User name carried in the session context (default: $USER)"),
    ("    --json", "Print errors as JSON on stdout"),
    ("-h, --help",
      if long then "Print help (see a summary with '-h')" else "Print help (see more with '--help')"),
    ("-V, --version", "Print version")]

/-- What the program does, for the long form of the help. -/
def longAbout : String :=
  "Run commands declared in a TOML manifest, one input line at a time.\n\nUsage: linedispatch" ++
    "                       interactive, default manifest linedispatch -m cmds.toml -e " ++
    "\"greet bob\" -e \"greet alice 3\"\n\nManifest location defaults to " ++
    "\x60<config dir>/linedispatch/commands.toml\x60."

def helpText (long : Bool) : String :=
  let column := 23
  let entry := fun item : String × String =>
    if long then s!"  {item.1}\n          {item.2}\n"
    else "  " ++ item.1 ++ String.ofList (List.replicate (column - item.1.length) ' ') ++ item.2 ++ "\n"
  let about := if long then longAbout else "Dispatch input lines to manifest commands"
  about ++ "\n\nUsage: linedispatch [OPTIONS]\n\nOptions:\n" ++
    (if long then "\n" else "").intercalate ((optionHelp long).map entry)

end Switchboard.Cli
