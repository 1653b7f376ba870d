import ScalarScript.Console.Program

/-!
# The command line

Runs the program on the disk.  At a prompt, each line is answered before the next is read.
-/

namespace ScalarScript
namespace Console

/-- The reason of a failed access to a file. -/
def accessReason : IO.Error → String
  | .noFileOrDirectory .. => FileError.notFound.message
  | .inappropriateType _ code _ =>
      if code = 21 ∨ code = 0 - 21 then FileError.isFolder.message
      else FileError.notFolder.message
  | other => toString other

/-- Access to the files of the disk. -/
def diskAccess : Files IO where
  read path := do
    try
      pure (.ok (← IO.FS.readBinFile path))
    catch error =>
      pure (.error (accessReason error))
  write path text := do
    try
      IO.FS.writeFile path text
      pure (.ok ())
    catch error =>
      pure (.error (accessReason error))

/-- Writes to both output streams. -/
def deliver (output : Output) : IO Unit := do
  let out ← IO.getStdout
  out.putStr output.out
  out.flush
  let err ← IO.getStderr
  err.putStr output.err
  err.flush

/-- One line of the input, without its newline; nothing at the end. -/
def nextLine (input : IO.FS.Stream) : IO (Option String) := do
  let line ← input.getLine
  if line.isEmpty then
    pure none
  else
    pure ((Text.lines line.toList).head?.map String.ofList)

/-- Answers lines until the session ends. -/
partial def converse (terminal : Terminal) (session : Session) (input : IO.FS.Stream) :
    IO UInt32 := do
  deliver { out := Repl.prompt }
  match ← nextLine input with
  | none =>
      deliver { out := Repl.closing session }
      pure 0
  | some line =>
      if Text.isBlank line then
        deliver { out := Repl.closing session }
        pure 0
      else
        let (session, output) := Repl.runLine terminal session line
        deliver output
        converse terminal session input

end Console
end ScalarScript

open ScalarScript Console in
/-- Runs the command line. -/
def main (arguments : List String) : IO UInt32 := do
  let input ← IO.getStdin
  let coloured ← (← IO.getStdout).isTty
  match request? arguments with
  | none =>
      deliver { err := helpText }
      pure 2
  | some (.command verbosity (.repl keepGoing)) =>
      converse ⟨coloured, .ofVerbosity verbosity⟩ (Repl.start keepGoing) input
  | some request =>
      let result ← runRequest diskAccess coloured ByteArray.empty request
      deliver result.output
      pure (UInt32.ofNat result.exit)
