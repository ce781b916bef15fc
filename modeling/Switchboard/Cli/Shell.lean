import Switchboard.Background
import Switchboard.Cli.Options
import Switchboard.Cli.Report
import Switchboard.Manifest.Source

/-!
# Running lines

A shell holds the commands of a manifest and the session of a user. It answers
lines one by one: replies go to the standard output, and failures to the
standard error or, as JSON, to the standard output.
-/

namespace Switchboard.Cli

/-- What was written, and whether any line failed. -/
structure Written where
  out : String
  err : String
  failed : Bool
deriving DecidableEq, Repr

namespace Written

def nothing : Written := ⟨"", "", false⟩

def append (a b : Written) : Written :=
  ⟨a.out ++ b.out, a.err ++ b.err, a.failed || b.failed⟩

end Written

structure Shell where
  dispatcher : Dispatcher (List String)
  session : Value
  json : Bool

/-- The user of the session: the one asked for, else one of the environment that is not blank. -/
def chooseUser (asked? env? : Option String) : String :=
  match asked?, env? with
  | some user, _ => user
  | none, some user => if (Text.trim user).isEmpty then "anonymous" else user
  | none, none => "anonymous"

namespace Shell

/-- Answer one line. -/
def answer (shell : Shell) (line : String) : Written :=
  let (reports, sent) := shell.dispatcher.runAll [⟨some shell.session, line, .await⟩] []
  let out := String.join (sent.map (· ++ "\n"))
  match reports with
  | [.awaited (.error e)] =>
    if shell.json then ⟨out ++ jsonReport e ++ "\n", "", true⟩
    else ⟨out, textReport e ++ "\n", true⟩
  | _ => ⟨out, "", false⟩

/-- Answer lines one after another. -/
def serve (shell : Shell) : List String → Written
  | [] => .nothing
  | line :: lines => (shell.answer line).append (shell.serve lines)

end Shell

/-- The line that a line of input stands for; nothing if it is blank. -/
def inputLine? (raw : String) : Option String :=
  let line := String.ofList (raw.toList.reverse.dropWhile (· == '\r')).reverse
  if (Text.trim line).isEmpty then none else some line

/-- The lines of an input that are not blank. -/
def inputLines (input : String) : List String :=
  ((input.toList.splitOn '\n').map String.ofList).filterMap inputLine?

/-- How a run of the program ended. -/
structure Output where
  code : Nat
  out : String
  err : String
deriving DecidableEq, Repr

/-- Make a shell of a manifest, or fail. -/
def start (o : Options) (manifest : Except ManifestError Manifest) (envUser? : Option String) :
    Except Output Shell :=
  match manifest with
  | .error e => .error ⟨2, "", e.message ++ "\n"⟩
  | .ok m =>
    match m.register with
    | .error e => .error ⟨2, "", "Failed to register commands: " ++ e.message ++ "\n"⟩
    | .ok registrar =>
      .ok ⟨registrar.finish, sessionValue (chooseUser o.user? envUser?) 1, o.json⟩

/-- Run the lines asked for, or those of the input where none are. A failure counts only in
lines that were asked for. -/
def run (o : Options) (manifest : Except ManifestError Manifest) (envUser? : Option String)
    (input : String) : Output :=
  match start o manifest envUser? with
  | .error output => output
  | .ok shell =>
    if o.exec.isEmpty then
      let written := shell.serve (inputLines input)
      ⟨0, written.out, written.err⟩
    else
      let written := shell.serve o.exec
      ⟨if written.failed then 1 else 0, written.out, written.err⟩

/-- The output of a request that needs no manifest. -/
def Request.output? : Request → Option Output
  | .run _ => none
  | .help long => some ⟨0, helpText long, ""⟩
  | .version => some ⟨0, versionText, ""⟩
  | .usage => some ⟨2, "", "error: invalid usage, try '--help'\n"⟩

end Switchboard.Cli
