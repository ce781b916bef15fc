import Switchboard.Cli.Shell

/-!
# The program

Reads the manifest and the input, and writes what the shell answers. With a
terminal as its input it shows a prompt before each line.
-/

namespace Switchboard.Cli

/-- Read what is at a path. -/
def readFile (path : String) : IO Manifest.File := do
  try
    return .content (← IO.FS.readBinFile path)
  catch
    | .noFileOrDirectory .. => return .missing
    | _ => return .unreadable

/-- Where the default manifest is. -/
def defaultManifestPath : IO String := do
  let base ← match ← IO.getEnv "XDG_CONFIG_HOME" with
    | some dir =>
      if dir.startsWith "/" then pure dir else pure ((← IO.getEnv "HOME").getD "" ++ "/.config")
    | none => pure ((← IO.getEnv "HOME").getD "" ++ "/.config")
  return base ++ "/linedispatch/commands.toml"

def loadManifest : Option String → IO (Except ManifestError Manifest)
  | some path => return Manifest.load path (← readFile path)
  | none => do
    let path ← defaultManifestPath
    return Manifest.loadDefault path (← readFile path)

/-- Write what was answered. -/
def emit (out err : String) : IO Unit := do
  let stdout ← IO.getStdout
  let stderr ← IO.getStderr
  stdout.putStr out
  stdout.flush
  stderr.putStr err
  stderr.flush

/-- Answer the lines of the input until it ends. -/
partial def loop (shell : Shell) (prompt : String) (input : IO.FS.Stream) : IO Unit := do
  if ← input.isTty then emit prompt ""
  let line ← input.getLine
  if line.isEmpty then return
  let written := shell.serve (inputLines line)
  emit written.out written.err
  loop shell prompt input

def execute (o : Options) : IO UInt32 := do
  let manifest ← loadManifest o.manifest?
  let envUser? ← IO.getEnv "USER"
  if o.exec.isEmpty then
    match start o manifest envUser?, manifest with
    | .ok shell, .ok m =>
      loop shell m.prompt (← IO.getStdin)
      return 0
    | .error output, _ =>
      emit output.out output.err
      return output.code.toUInt32
    | .ok _, .error _ => return 0
  else
    let output := run o manifest envUser? ""
    emit output.out output.err
    return output.code.toUInt32

end Switchboard.Cli

open Switchboard.Cli in
def main (words : List String) : IO UInt32 := do
  match parse words with
  | .run options => execute options
  | request =>
    match request.output? with
    | some output =>
      emit output.out output.err
      return output.code.toUInt32
    | none => return 0
