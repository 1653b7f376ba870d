import ScalarScript.Console.Folder
import ScalarScript.Console.Repl

/-!
# The program

From arguments to output and exit code.  Files are reached through `Files`, so that the
program can be run on a folder in memory as well as on a disk.
-/

namespace ScalarScript
namespace Console

/-- What the program writes and how it ends. -/
structure Result where
  output : Output
  exit : Nat
deriving DecidableEq, Repr

/-- The name and version of the program. -/
def versionText : String := "poly 0.1.0\n"

/-- A short help. -/
def helpText : String :=
  "Usage: poly [-v]... [build|run|repl] [OPTIONS] [FILE]\n"

/-- The line about an error that is no fault of a script. -/
def hardError (reason : String) : Output :=
  { err := "poly: " ++ reason ++ "\n" }

/-- The exit code of a command that did or did not succeed. -/
def exitCode (ok : Bool) : Nat :=
  if ok then 0 else 1

/-- Builds a script and writes the module to a file or to the output. -/
def buildCommand {m : Type → Type} [Monad m] (files : Files m) (terminal : Terminal)
    (options : BuildOptions) : m Result := do
  match loadScript options.file (← files.read options.file) with
  | .error diagnostic => pure ⟨loadFailure terminal options.format diagnostic, 1⟩
  | .ok script =>
      match build terminal options script with
      | (output, none) => pure ⟨output, 1⟩
      | (output, some text) =>
          match options.output with
          | none => pure ⟨output ++ { out := text }, 0⟩
          | some path =>
              match ← files.write path text with
              | .error reason => pure ⟨output ++ hardError reason, 1⟩
              | .ok _ =>
                  let note := Style.success.apply terminal.coloured ("wrote " ++ path)
                  pure ⟨output ++ { out := note ++ "\n" }, 0⟩

/-- Runs a script. -/
def runCommand {m : Type → Type} [Monad m] (files : Files m) (terminal : Terminal)
    (options : RunOptions) : m Result := do
  match loadScript options.file (← files.read options.file) with
  | .error diagnostic => pure ⟨loadFailure terminal options.format diagnostic, 1⟩
  | .ok script =>
      let (output, ok) := run terminal options script
      pure ⟨output, exitCode ok⟩

/-- Runs a prompt on a whole input. -/
def replCommand (terminal : Terminal) (keepGoing : Bool) (input : ByteArray) : Result :=
  match Repl.runLines terminal (Repl.start keepGoing) (Repl.inputLines input) with
  | (output, true) => ⟨output, 0⟩
  | (output, false) => ⟨output ++ hardError notText, 1⟩

/-- Runs a command. -/
def runRequest {m : Type → Type} [Monad m] (files : Files m) (coloured : Bool)
    (input : ByteArray) : Request → m Result
  | .version => pure ⟨{ out := versionText }, 0⟩
  | .help => pure ⟨{ out := helpText }, 0⟩
  | .command verbosity command =>
      let terminal : Terminal := ⟨coloured, .ofVerbosity verbosity⟩
      match command with
      | .build options => buildCommand files terminal options
      | .run options => runCommand files terminal options
      | .repl keepGoing => pure (replCommand terminal keepGoing input)

/-- Runs the program.  Arguments that make no sense end it with the code 2. -/
def program {m : Type → Type} [Monad m] (files : Files m) (coloured : Bool)
    (input : ByteArray) (arguments : List String) : m Result :=
  match request? arguments with
  | none => pure ⟨{}, 2⟩
  | some request => runRequest files coloured input request

end Console
end ScalarScript
