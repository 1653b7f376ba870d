import ScalarScript.Code.Document
import ScalarScript.Console.Arguments
import ScalarScript.Console.Log
import ScalarScript.Console.Table
import ScalarScript.Session
import ScalarScript.Tree.Document

/-!
# Commands on a script

What `build` and `run` write for a script, and how a script is loaded from a file.
-/

namespace ScalarScript
namespace Console

/-- What is written to the two output streams. -/
structure Output where
  out : String := ""
  err : String := ""
deriving DecidableEq, Repr

namespace Output

/-- One output after the other. -/
def append (first second : Output) : Output :=
  ⟨first.out ++ second.out, first.err ++ second.err⟩

instance : Append Output := ⟨append⟩

end Output

/-- The last name of a path, empty when the path ends in no name. -/
def fileName (path : String) : String :=
  match ((path.splitOn "/").filter fun name => name ≠ "" ∧ name ≠ ".").getLast? with
  | none => ""
  | some name => if name = ".." then "" else name

/-- What is said of bytes that are no text. -/
def notText : String := "stream did not contain valid UTF-8"

/-- The script in a file, given what came of reading it. -/
def loadScript (path : String) (content : Except String ByteArray) :
    Except Diagnostic Script :=
  match content with
  | .error reason => .error (missingScript path reason)
  | .ok bytes =>
      match String.fromUTF8? bytes with
      | none => .error (missingScript path notText)
      | some text => .ok ⟨fileName path, path, text⟩

/-- The report of a failure in a script. -/
def failureReport (script : Script) (failure : Failure) : Report :=
  let diagnostic := failure.diagnostic
  (Report.resolve? diagnostic script).getD (.unplaced diagnostic)

/-- The reports of failures in a script. -/
def failureReports (terminal : Terminal) (format : ReportFormat) (script : Script)
    (failures : List Failure) : String :=
  String.join (failures.map fun failure =>
    writeReport format terminal.coloured (failureReport script failure))

/-- The output about a script that could not be loaded. -/
def loadFailure (terminal : Terminal) (format : ReportFormat) (diagnostic : Diagnostic) :
    Output :=
  { err := writeReport format terminal.coloured (.unplaced diagnostic) }

/-- The JSON text of statements. -/
def treeText (statements : List Stmt) : String :=
  (Document.list (Stmt.documents .real statements)).pretty

/-- The output of an intermediate stage.  A tree is shown only when there is one. -/
def dumpStage (terminal : Terminal) (script : Script) (stage : Stage) : Output :=
  let scanned := scan script.content
  let entries := Journal.ofScan scanned
  match stage with
  | .tokens => { out := tokenTable scanned.tokens ++ "\n", err := terminal.log entries }
  | .code => { err := terminal.log entries }
  | .tree =>
      if scanned.errors.isEmpty then
        let parsed := Parse.ofTokens scanned.tokens
        { out := match parsed.result with
            | .ok statements => treeText statements ++ "\n"
            | .error _ => ""
          err := terminal.log (entries ++ Journal.ofParse parsed) }
      else
        { err := terminal.log entries }

/-- The output of the stage that is asked for, if one is. -/
def dump (terminal : Terminal) (script : Script) (stage : Option Stage) : Output :=
  match stage with
  | some stage => dumpStage terminal script stage
  | none => {}

/-- What `build` writes for a script, and the text of the module when there is one. -/
def build (terminal : Terminal) (options : BuildOptions) (script : Script) :
    Output × Option String :=
  let dumped := dump terminal script options.dump
  let compiled := script.compile
  let logged : Output := { err := terminal.log compiled.journal }
  match compiled.result with
  | .error failure =>
      (dumped ++ logged ++
        { err := failureReports terminal options.format script [failure] }, none)
  | .ok table =>
      let built := Journal.Entry.built table.name table.functions.length
      let text := match options.emission with
        | .json => table.json ++ "\n"
        | .listing => table.listing
      (dumped ++ logged ++ { err := terminal.log [built] }, some text)

/-- The announcement of an outcome of `run`. -/
def announcement (terminal : Terminal) : Outcome → Output
  | .evaluated (some value) _ => { out := Decimal.Layout.plain.write value ++ "\n" }
  | .evaluated none _ => {}
  | .declared name _ => { err := terminal.log [.announcedDeclared name] }
  | .defined name _ => { err := terminal.log [.announcedDefined name] }

/-- What `run` writes for a script, and whether nothing failed. -/
def run (terminal : Terminal) (options : RunOptions) (script : Script) : Output × Bool :=
  let dumped := dump terminal script options.dump
  let session := Session.start script.name options.keepGoing options.evaluate
  let (session, execution) := session.execute script
  let executed : Output := { out := execution.printed, err := terminal.log execution.journal }
  let announced := (execution.outcomes.map (announcement terminal)).foldl Output.append {}
  let reported : Output :=
    { err := failureReports terminal options.format script execution.failures }
  let listed : Output :=
    if options.dump = some .code then { out := session.table.listing } else {}
  (dumped ++ executed ++ announced ++ reported ++ listed, execution.isOk)

end Console
end ScalarScript
