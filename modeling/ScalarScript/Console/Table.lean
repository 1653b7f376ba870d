import ScalarScript.Text.Width
import ScalarScript.Token

/-!
# Tables

A table has a header and rows of cells, framed by box-drawing characters.  A cell may hold
several lines, and a column is as wide as its widest line.
-/

namespace ScalarScript
namespace Console

/-- The lines of a cell. -/
abbrev Cell := List (List Char)

/-- The lines of a text. -/
def splitLines : List Char → Cell
  | [] => [[]]
  | c :: text =>
      if c = '\n' then
        [] :: splitLines text
      else
        match splitLines text with
        | [] => [[c]]
        | line :: lines => (c :: line) :: lines

/-- The cell of a text. -/
def cell (text : String) : Cell :=
  splitLines text.toList

/-- The columns that a cell takes. -/
def cellWidth (lines : Cell) : Nat :=
  (lines.map Text.displayWidth).foldl max 0

/-- A line filled up with blanks. -/
def pad (width : Nat) (line : List Char) : List Char :=
  line ++ List.replicate (width - Text.displayWidth line) ' '

/-- A horizontal rule: its left end, its filling, its joints and its right end. -/
structure Rule where
  left : Char
  fill : Char
  joint : Char
  right : Char
deriving Repr

namespace Rule

/-- The rule above the header. -/
def top : Rule := ⟨'┌', '─', '┬', '┐'⟩

/-- The rule below the header. -/
def header : Rule := ⟨'╞', '═', '╪', '╡'⟩

/-- The rule between two rows. -/
def middle : Rule := ⟨'├', '╌', '┼', '┤'⟩

/-- The rule below the last row. -/
def bottom : Rule := ⟨'└', '─', '┴', '┘'⟩

/-- The rule across columns of the given widths. -/
def draw (rule : Rule) (widths : List Nat) : List Char :=
  let segments := widths.map fun width => List.replicate (width + 2) rule.fill
  rule.left :: [rule.joint].intercalate segments ++ [rule.right]

end Rule

/-- One line across the cells of a row. -/
def rowLine (widths : List Nat) (cells : List Cell) (index : Nat) : List Char :=
  let parts := (widths.zip cells).map fun (width, lines) =>
    ' ' :: pad width (lines[index]?.getD []) ++ [' ']
  '│' :: ['┆'].intercalate parts ++ ['│']

/-- The lines of a row. -/
def rowLines (widths : List Nat) (cells : List Cell) : List (List Char) :=
  let height := (cells.map List.length).foldl max 0
  (List.range height).map (rowLine widths cells)

/-- The width of each column. -/
def columnWidths (header : List Cell) (rows : List (List Cell)) : List Nat :=
  rows.foldl (fun widths row => widths.zipWith max (row.map cellWidth)) (header.map cellWidth)

/-- The rows with the rules between them. -/
def bodyLines (widths : List Nat) : List (List Cell) → List (List Char)
  | [] => []
  | [row] => rowLines widths row
  | row :: rows => rowLines widths row ++ Rule.middle.draw widths :: bodyLines widths rows

/-- The text of a table. -/
def drawTable (header : List String) (rows : List (List String)) : String :=
  let header := header.map cell
  let rows := rows.map fun row => row.map cell
  let widths := columnWidths header rows
  let lines :=
    Rule.top.draw widths :: rowLines widths header ++ Rule.header.draw widths ::
      bodyLines widths rows ++ [Rule.bottom.draw widths]
  String.ofList (['\n'].intercalate lines)

/-- The value of a token in the table of tokens. -/
def tokenValue (token : Token) : String :=
  match token.payload with
  | some (.number value) => Decimal.Layout.plain.write value
  | some (.text value) => value
  | none => ""

/-- The table of tokens. -/
def tokenTable (tokens : List Token) : String :=
  drawTable ["#", "kind", "value", "line", "span"] <|
    tokens.zipIdx.map fun (token, index) =>
      [toString index, token.kind.name, tokenValue token, toString token.span.line,
        s!"{token.span.start}..{token.span.stop}"]

end Console
end ScalarScript
