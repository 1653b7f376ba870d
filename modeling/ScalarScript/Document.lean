import ScalarScript.Decimal.Layout

/-!
# JSON documents

Documents made of texts, numbers, lists and records, and their text with one item to a
line and two blanks for each level.
-/

namespace ScalarScript

/-- A JSON document. -/
inductive Document where
  | null
  /-- A number, given by its characters. -/
  | numeral (digits : String)
  | text (value : String)
  | list (items : List Document)
  | record (fields : List (String × Document))
deriving Repr

namespace Document

/-- A natural number. -/
def nat (value : Nat) : Document :=
  .numeral (toString value)

/-- A floating-point number; what is no finite number is null. -/
def real (value : Float) : Document :=
  if value.isFinite then .numeral (Decimal.Layout.json.write value) else .null

/-- A document that may be missing. -/
def option {α : Type} (document : α → Document) (value : Option α) : Document :=
  (value.map document).getD .null

/-- A list of texts. -/
def texts (values : List String) : Document :=
  .list (values.map .text)

/-- A record with a single field. -/
def tagged (tag : String) (value : Document) : Document :=
  .record [(tag, value)]

/-- Four hexadecimal digits of a small number. -/
def hex4 (code : Nat) : List Char :=
  let digits := Nat.toDigits 16 code
  List.replicate (4 - digits.length) '0' ++ digits

/-- The escape of a character inside a text. -/
def escape (c : Char) : List Char :=
  if c = '"' then ['\\', '"']
  else if c = '\\' then ['\\', '\\']
  else if c = '\x08' then ['\\', 'b']
  else if c = '\x0c' then ['\\', 'f']
  else if c = '\n' then ['\\', 'n']
  else if c = '\r' then ['\\', 'r']
  else if c = '\t' then ['\\', 't']
  else if c.toNat < 0x20 then '\\' :: 'u' :: hex4 c.toNat
  else [c]

/-- A text in double quotes. -/
def quote (value : String) : String :=
  String.ofList ('"' :: value.toList.flatMap escape ++ ['"'])

/-- The beginning of a line at the given level. -/
def indent (level : Nat) : String :=
  String.ofList ('\n' :: List.replicate (2 * level) ' ')

/-- Items between brackets, one to a line. -/
def bracketed (level : Nat) (left right : String) (items : List String) : String :=
  if items.isEmpty then left ++ right
  else
    left ++ ",".intercalate (items.map fun item => indent (level + 1) ++ item) ++
      indent level ++ right

mutual

/-- The text of a document that stands at the given level. -/
def write (level : Nat) : Document → String
  | .null => "null"
  | .numeral digits => digits
  | .text value => quote value
  | .list items => bracketed level "[" "]" (writeItems (level + 1) items)
  | .record fields => bracketed level "\x7b" "\x7d" (writeFields (level + 1) fields)

/-- The texts of the items of a list. -/
def writeItems (level : Nat) : List Document → List String
  | [] => []
  | item :: items => write level item :: writeItems level items

/-- The texts of the fields of a record. -/
def writeFields (level : Nat) : List (String × Document) → List String
  | [] => []
  | field :: fields => writeField level field :: writeFields level fields

/-- The text of a field. -/
def writeField (level : Nat) : String × Document → String
  | (key, value) => quote key ++ ": " ++ write level value

end

/-- The text of a document. -/
def pretty (document : Document) : String :=
  document.write 0

end Document
end ScalarScript
