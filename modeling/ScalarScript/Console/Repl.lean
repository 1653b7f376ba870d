import ScalarScript.Console.Command

/-!
# The prompt

Each line typed at the prompt is a chunk of one session.  A blank line or the end of the
input ends the session, and the module is printed.
-/

namespace ScalarScript
namespace Console
namespace Repl

/-- The text before each line. -/
def prompt : String := ">>> "

/-- The session of a prompt. -/
def start (keepGoing : Bool) : Session :=
  .start "<stdin>" keepGoing true

/-- What is written for an outcome. -/
def outcomeText (outcome : Outcome) : String :=
  outcome.listing ++ match outcome.value? with
    | some value => Decimal.Layout.plain.write value ++ "\n"
    | none => ""

/-- Runs one line. -/
def runLine (terminal : Terminal) (session : Session) (line : String) : Session × Output :=
  let script := Script.ofSource "<stdin>" line
  let (session, execution) := session.execute script
  (session,
    { out := execution.printed ++ String.join (execution.outcomes.map outcomeText)
      err := terminal.log execution.journal ++
        failureReports terminal .text script execution.failures })

/-- What is written at the end of a session. -/
def closing (session : Session) : String :=
  "\n" ++ session.table.listing

/-- Runs lines up to a blank one, the last, or one that is no text.  The second result is
false when a line was no text. -/
def runLines (terminal : Terminal) (session : Session) :
    List (Option String) → Output × Bool
  | [] => ({ out := prompt ++ closing session }, true)
  | none :: _ => ({ out := prompt }, false)
  | some line :: lines =>
      if Text.isBlank line then
        ({ out := prompt ++ closing session }, true)
      else
        let (session, output) := runLine terminal session line
        let (others, readable) := runLines terminal session lines
        ({ out := prompt } ++ output ++ others, readable)

/-- Cuts bytes into lines without their newlines, where `current` holds the bytes read of
the first line, in reverse. -/
def cutLines (current : List UInt8) : List UInt8 → List (List UInt8)
  | [] => if current.isEmpty then [] else [current.reverse]
  | byte :: bytes =>
      if byte = 10 then
        let line := match current with
          | 13 :: rest => rest
          | _ => current
        line.reverse :: cutLines [] bytes
      else
        cutLines (byte :: current) bytes

/-- The lines of an input, each a text or no text. -/
def inputLines (input : ByteArray) : List (Option String) :=
  (cutLines [] input.toList).map fun line => String.fromUTF8? ⟨line.toArray⟩

end Repl
end Console
end ScalarScript
