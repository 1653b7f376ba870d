import ScalarScript.Code.Builder
import ScalarScript.Lowering.LoweringError
import ScalarScript.Machine.Run
import ScalarScript.Token.Scan
import ScalarScript.Tree.Parse

/-!
# The journal

What the program does is recorded as a list of entries.  Each entry has a level, from
information down to the finest trace, and a text.
-/

namespace ScalarScript
namespace Journal

/-- How much detail an entry gives. -/
inductive Level where
  | error
  | warn
  | info
  | debug
  | trace
deriving DecidableEq, Repr

namespace Level

/-- The rank of a level; more detail ranks higher. -/
def rank : Level → Nat
  | .error => 1
  | .warn => 2
  | .info => 3
  | .debug => 4
  | .trace => 5

/-- The level in log lines. -/
def label : Level → String
  | .error => "ERROR"
  | .warn => "WARN"
  | .info => "INFO"
  | .debug => "DEBUG"
  | .trace => "TRACE"

/-- The level shown for a number of requests for more output. -/
def ofVerbosity : Nat → Level
  | 0 => .warn
  | 1 => .info
  | 2 => .debug
  | _ => .trace

end Level

/-- One thing that happened. -/
inductive Entry where
  | scanned (token : Token)
  | misread (error : LexError)
  | parsed (shape : Shape)
  | declared (name : String) (params : List String)
  | defined (name : String) (blocks : Nat)
  | discarded (name : String)
  | erased (name : String)
  | emitted (label : String) (op : Code.Op)
  | rolledBack (name : String) (error : LoweringError)
  | called (name : String) (args : List Float)
  | entered (function label : String)
  | unreadable (count : Nat) (script : String)
  | statementDeclared (name : String)
  | statementDefined (name : String)
  | statementEvaluated (value : Option Float)
  | built (name : String) (functions : Nat)
  | announcedDeclared (name : String)
  | announcedDefined (name : String)
deriving Repr

namespace Entry

/-- The level of an entry. -/
def level : Entry → Level
  | .scanned _ => .trace
  | .misread _ => .debug
  | .parsed _ => .trace
  | .declared .. => .debug
  | .defined .. => .debug
  | .discarded _ => .debug
  | .erased _ => .debug
  | .emitted .. => .trace
  | .rolledBack .. => .debug
  | .called .. => .debug
  | .entered .. => .trace
  | .unreadable .. => .debug
  | .statementDeclared _ => .debug
  | .statementDefined _ => .debug
  | .statementEvaluated _ => .debug
  | .built .. => .info
  | .announcedDeclared _ => .info
  | .announcedDefined _ => .info

/-- The text of an entry. -/
def text : Entry → String
  | .scanned token => s!"[lexer] {token.kind.name} at {token.span.describe}"
  | .misread error => s!"[lexer] {error.diagnostic.sentence}"
  | .parsed shape => s!"[parser] parsed {shape.describe}"
  | .declared name params =>
      let list := ", ".intercalate params
      s!"[ir] declare @{name}({list})"
  | .defined name blocks => s!"[ir] define @{name} ({blocks} blocks)"
  | .discarded name => s!"[ir] discard body of @{name}"
  | .erased name => s!"[ir] erase @{name}"
  | .emitted label op => s!"[ir] {label} <- {op.describe}"
  | .rolledBack name error => s!"[lower] @{name} rolled back: {error.diagnostic.sentence}"
  | .called name args =>
      let list := ", ".intercalate (args.map Code.constant)
      s!"[vm] call @{name}([{list}])"
  | .entered function label => s!"[vm] @{function} {label}:"
  | .unreadable count script => s!"[session] {count} lexical error(s) in {script}"
  | .statementDeclared name => s!"[session] declared @{name}"
  | .statementDefined name => s!"[session] defined @{name}"
  | .statementEvaluated (some value) =>
      s!"[session] evaluated top-level expression: Some({Code.constant value})"
  | .statementEvaluated none => "[session] evaluated top-level expression: None"
  | .built name functions => s!"built module '{name}' with {functions} function(s)"
  | .announcedDeclared name => s!"declared {name}"
  | .announcedDefined name => s!"defined {name}"

end Entry

/-- The entries of a scan. -/
def ofScan (scan : Scan) : List Entry :=
  scan.lexemes.map fun
    | .token token => .scanned token
    | .error error => .misread error

/-- The entries of a parse. -/
def ofParse (parse : Parse) : List Entry :=
  parse.statements.map fun statement => .parsed statement.shape

/-- The entries of a call and its run. -/
def ofRun (name : String) (args : List Float) (run : Machine.Run) : List Entry :=
  .called name args :: run.events.filterMap fun
    | .entered function label => some (.entered function label)
    | .printed _ => none

/-- The entries of ops added to a builder. -/
def ofBuilder (builder : Code.Builder) : List Entry :=
  builder.emitted.reverse.map fun (label, op) => .emitted label op

end Journal
end ScalarScript
