import ScalarScript.Console.ReportText

/-!
# Command-line arguments

The program has three subcommands, `build`, `run` and `repl`; without one it behaves like
`repl`.  Flags are single letters, which may be joined after one dash, or words after two
dashes.  A setting takes a value, in the same argument or the next.  After `--` every
argument is a file.
-/

namespace ScalarScript
namespace Console

/-- An intermediate stage that can be shown. -/
inductive Stage where
  | tokens
  | tree
  | code
deriving DecidableEq, Repr

/-- How a module is written. -/
inductive Emission where
  | listing
  | json
deriving DecidableEq, Repr

/-- What is asked of `build`. -/
structure BuildOptions where
  file : String
  dump : Option Stage
  format : ReportFormat
  emission : Emission
  output : Option String
deriving DecidableEq, Repr

/-- What is asked of `run`. -/
structure RunOptions where
  file : String
  dump : Option Stage
  format : ReportFormat
  keepGoing : Bool
  evaluate : Bool
deriving DecidableEq, Repr

/-- What is to be done. -/
inductive Command where
  | build (options : BuildOptions)
  | run (options : RunOptions)
  | repl (keepGoing : Bool)
deriving DecidableEq, Repr

/-- What the arguments ask for. -/
inductive Request where
  | version
  | help
  | command (verbosity : Nat) (command : Command)
deriving DecidableEq, Repr

/-- The subcommands. -/
inductive Subcommand where
  | build
  | run
  | repl
deriving DecidableEq, Repr

/-- Arguments that are present or absent. -/
inductive Switch where
  | keepGoing
  | noEval
deriving DecidableEq, Repr

/-- Arguments with a value. -/
inductive Setting where
  | dump
  | diagnostics
  | emit
  | output
deriving DecidableEq, Repr

namespace Subcommand

/-- The subcommand of a name. -/
def ofName? : String → Option Subcommand
  | "build" => some .build
  | "run" => some .run
  | "repl" => some .repl
  | _ => none

/-- The switches of a subcommand. -/
def switches : Subcommand → List Switch
  | .build => []
  | .run => [.keepGoing, .noEval]
  | .repl => [.keepGoing]

/-- The settings of a subcommand. -/
def settings : Subcommand → List Setting
  | .build => [.dump, .diagnostics, .emit, .output]
  | .run => [.dump, .diagnostics]
  | .repl => []

/-- Whether a subcommand works on a file. -/
def takesFile : Subcommand → Bool
  | .build => true
  | .run => true
  | .repl => false

end Subcommand

namespace Switch

/-- The letter of a switch. -/
def letter? : Switch → Option Char
  | .keepGoing => some 'k'
  | .noEval => none

/-- The word of a switch. -/
def word : Switch → String
  | .keepGoing => "keep-going"
  | .noEval => "no-eval"

end Switch

namespace Setting

/-- The letter of a setting. -/
def letter? : Setting → Option Char
  | .dump => some 'd'
  | .diagnostics => none
  | .emit => some 'e'
  | .output => some 'o'

/-- The word of a setting. -/
def word : Setting → String
  | .dump => "dump"
  | .diagnostics => "diagnostics"
  | .emit => "emit"
  | .output => "output"

/-- Whether a setting takes the value. -/
def accepts (setting : Setting) (value : String) : Bool :=
  match setting with
  | .dump => ["tokens", "ast", "ir"].contains value
  | .diagnostics => ["text", "json"].contains value
  | .emit => ["ir", "json"].contains value
  | .output => value ≠ ""

end Setting

/-- The arguments of a subcommand read so far. -/
structure Draft where
  verbosity : Nat := 0
  file : Option String := none
  switches : List Switch := []
  settings : List (Setting × String) := []
deriving DecidableEq, Repr

namespace Draft

/-- Adds a switch, which may be given once. -/
def addSwitch? (draft : Draft) (switch : Switch) : Option Draft :=
  if switch ∈ draft.switches then none
  else some { draft with switches := switch :: draft.switches }

/-- Adds a setting, which may be given once, with a value that it takes. -/
def addSetting? (draft : Draft) (setting : Setting) (value : String) : Option Draft :=
  if (draft.settings.lookup setting).isSome || !setting.accepts value then none
  else some { draft with settings := (setting, value) :: draft.settings }

/-- Adds the file, which may be given once. -/
def addFile? (draft : Draft) (subcommand : Subcommand) (file : String) : Option Draft :=
  if draft.file.isSome || !subcommand.takesFile then none
  else some { draft with file := some file }

/-- Asks for more output. -/
def addVerbosity (draft : Draft) : Draft :=
  { draft with verbosity := draft.verbosity + 1 }

end Draft

/-- A value in the same argument, without the equals sign in front. -/
def attached (value : List Char) : String :=
  match value with
  | '=' :: rest => String.ofList rest
  | _ => String.ofList value

/-- Reads letters after one dash.  The last may be a setting that waits for its value. -/
def readLetters (subcommand : Subcommand) (draft : Draft) :
    List Char → Option (Draft × Option Setting)
  | [] => some (draft, none)
  | letter :: letters =>
      if letter = 'v' then
        readLetters subcommand draft.addVerbosity letters
      else
        let switch := subcommand.switches.find? fun switch => switch.letter? = some letter
        let setting := subcommand.settings.find? fun setting => setting.letter? = some letter
        match switch, setting with
        | some switch, _ =>
            match draft.addSwitch? switch with
            | none => none
            | some draft => readLetters subcommand draft letters
        | none, some setting =>
            if letters.isEmpty then some (draft, some setting)
            else (draft.addSetting? setting (attached letters)).map (·, none)
        | none, none => none

/-- A word after two dashes, cut at its first equals sign. -/
def cutWord (text : List Char) : String × Option String :=
  let name := String.ofList (text.takeWhile (· ≠ '='))
  match text.dropWhile (· ≠ '=') with
  | _ :: value => (name, some (String.ofList value))
  | [] => (name, none)

/-- Reads a word after two dashes.  It may be a setting that waits for its value. -/
def readWord (subcommand : Subcommand) (draft : Draft) (text : List Char) :
    Option (Draft × Option Setting) :=
  let (name, value) := cutWord text
  let switch := subcommand.switches.find? fun switch => switch.word = name
  let setting := subcommand.settings.find? fun setting => setting.word = name
  match switch, setting, value with
  | some switch, _, none => (draft.addSwitch? switch).map (·, none)
  | none, some setting, some value => (draft.addSetting? setting value).map (·, none)
  | none, some setting, none => some (draft, some setting)
  | none, none, none => if name = "verbose" then some (draft.addVerbosity, none) else none
  | _, _, some _ => none

/-- Whether an argument cannot be the value of the setting before it. -/
def looksLikeFlag (argument : String) : Bool :=
  match argument.toList with
  | '-' :: _ :: _ => true
  | _ => false

/-- Reads files after `--`. -/
def readFiles (subcommand : Subcommand) (draft : Draft) : List String → Option Draft
  | [] => some draft
  | file :: files =>
      match draft.addFile? subcommand file with
      | none => none
      | some draft => readFiles subcommand draft files

/-- Reads an argument that is no value of the one before it. -/
def readArgument (subcommand : Subcommand) (draft : Draft) (argument : String) :
    Option (Draft × Option Setting) :=
  match argument.toList with
  | '-' :: '-' :: word => readWord subcommand draft word
  | '-' :: c :: letters => readLetters subcommand draft (c :: letters)
  | _ => (draft.addFile? subcommand argument).map (·, none)

/-- Reads the arguments of a subcommand; `waiting` is a setting that needs its value. -/
def readArguments (subcommand : Subcommand) (draft : Draft) (waiting : Option Setting) :
    List String → Option Draft
  | [] => if waiting.isSome then none else some draft
  | argument :: arguments =>
      match waiting with
      | some setting =>
          if looksLikeFlag argument then none
          else
            match draft.addSetting? setting argument with
            | none => none
            | some draft => readArguments subcommand draft none arguments
      | none =>
          if argument = "--" then
            readFiles subcommand draft arguments
          else
            match readArgument subcommand draft argument with
            | none => none
            | some (draft, waiting) => readArguments subcommand draft waiting arguments

namespace Draft

/-- The stage asked for by the setting `dump`. -/
def stage? (draft : Draft) : Option Stage :=
  (draft.settings.lookup .dump).map fun value =>
    if value = "tokens" then .tokens
    else if value = "ast" then .tree
    else .code

/-- The format asked for by the setting `diagnostics`. -/
def format (draft : Draft) : ReportFormat :=
  if draft.settings.lookup .diagnostics = some "json" then .json else .text

/-- The command that the arguments of a subcommand ask for. -/
def command? (draft : Draft) (subcommand : Subcommand) : Option Command :=
  match subcommand, draft.file with
  | .build, some file =>
      some (.build {
        file := file
        dump := draft.stage?
        format := draft.format
        emission := if draft.settings.lookup .emit = some "json" then .json else .listing
        output := draft.settings.lookup .output })
  | .run, some file =>
      some (.run {
        file := file
        dump := draft.stage?
        format := draft.format
        keepGoing := draft.switches.contains .keepGoing
        evaluate := !draft.switches.contains .noEval })
  | .repl, _ => some (.repl (draft.switches.contains .keepGoing))
  | _, none => none

end Draft

/-- What letters in front of the subcommand ask for: more output, or an early end. -/
def readLeadingLetters (verbosity : Nat) : List Char → Option (Nat × Option Request)
  | [] => some (verbosity, none)
  | 'v' :: letters => readLeadingLetters (verbosity + 1) letters
  | 'V' :: _ => some (verbosity, some .version)
  | 'h' :: _ => some (verbosity, some .help)
  | _ => none

/-- The request of a subcommand.  A request for more output after the subcommand replaces
those in front of it. -/
def subcommandRequest (verbosity : Nat) (subcommand : Subcommand) (arguments : List String) :
    Option Request := do
  let draft ← readArguments subcommand {} none arguments
  let command ← draft.command? subcommand
  some (.command (if draft.verbosity = 0 then verbosity else draft.verbosity) command)

/-- The request for help on the program or on one subcommand. -/
def helpRequest? : List String → Option Request
  | [] => some .help
  | [topic] =>
      if (Subcommand.ofName? topic).isSome ∨ topic = "help" then some .help else none
  | _ => none

/-- Reads the arguments in front of the subcommand, and then the subcommand. -/
def readLeading (verbosity : Nat) : List String → Option Request
  | [] => some (.command verbosity (.repl false))
  | argument :: arguments =>
      match Subcommand.ofName? argument with
      | some subcommand => subcommandRequest verbosity subcommand arguments
      | none =>
          if argument = "help" then helpRequest? arguments
          else if argument = "--" then
            if arguments.isEmpty then some (.command verbosity (.repl false)) else none
          else if argument = "--verbose" then readLeading (verbosity + 1) arguments
          else if argument = "--version" then some .version
          else if argument = "--help" then some .help
          else
            match argument.toList with
            | '-' :: c :: letters =>
                match readLeadingLetters verbosity (c :: letters) with
                | none => none
                | some (_, some request) => some request
                | some (verbosity, none) => readLeading verbosity arguments
            | _ => none

/-- What the arguments of the program ask for; nothing when they make no sense. -/
def request? (arguments : List String) : Option Request :=
  readLeading 0 arguments

end Console
end ScalarScript
