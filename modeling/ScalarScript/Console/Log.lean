import ScalarScript.Console.Style
import ScalarScript.Journal

/-!
# Log lines

Entries of the journal that are detailed enough to be shown become lines of a log.
-/

namespace ScalarScript
namespace Console

/-- How a terminal shows things. -/
structure Terminal where
  /-- Styles are on. -/
  coloured : Bool
  /-- The most detailed level that is shown. -/
  level : Journal.Level
deriving DecidableEq, Repr

/-- The style of a level. -/
def levelStyle : Journal.Level → Style
  | .error => .failure
  | .warn => { colour := some .yellow }
  | .info => { colour := some .cyan }
  | .debug => { colour := some .blue }
  | .trace => .faint

/-- The level in brackets, five columns wide. -/
def levelTag (level : Journal.Level) : String :=
  let label := level.label.toList
  String.ofList ('[' :: label ++ List.replicate (5 - label.length) ' ' ++ [']'])

namespace Terminal

/-- The line of an entry. -/
def logLine (terminal : Terminal) (entry : Journal.Entry) : String :=
  (levelStyle entry.level).apply terminal.coloured (levelTag entry.level) ++ " " ++
    entry.text ++ "\n"

/-- The lines of the entries that are shown. -/
def log (terminal : Terminal) (entries : List Journal.Entry) : String :=
  String.join ((entries.filter fun entry => entry.level.rank ≤ terminal.level.rank).map
    terminal.logLine)

end Terminal
end Console
end ScalarScript
