import Dispatch.Text.Quoted

/-!
# JSON values and their indented form

## Main definitions

* `Json` — a value of the data format, with the members of an object in order
* `Json.string` — a text in double quotes, control characters escaped
* `Json.pretty` — the value over several lines, each level indented by two more blanks
-/

set_option autoImplicit false

namespace Dispatch

/-- A value of the data format. -/
inductive Json where
  | boolean (value : Bool)
  | text (value : String)
  | array (elements : List Json)
  /-- members in order -/
  | object (members : List (String × Json))

namespace Json

/-- A character as it stands in a quoted text: the quote, the backslash and the control characters
are escaped, everything else stands for itself. -/
def escapedChar (c : Char) : List Char :=
  if c = '"' then ['\\', '"']
  else if c = '\\' then ['\\', '\\']
  else if c = '\x08' then ['\\', 'b']
  else if c = '\x0c' then ['\\', 'f']
  else if c = '\n' then ['\\', 'n']
  else if c = '\r' then ['\\', 'r']
  else if c = '\t' then ['\\', 't']
  else if c.toNat < 0x20 then
    ['\\', 'u'] ++ List.leftpad 4 '0' (Text.hexDigits c.toNat)
  else [c]

/-- A text in double quotes. -/
def string (s : String) : String := String.ofList ('"' :: s.toList.flatMap escapedChar ++ ['"'])

/-- The beginning of a line at a given depth. -/
def newline (depth : Nat) : String := String.ofList ('\n' :: List.replicate (2 * depth) ' ')

/-- Items between two brackets, each on its own line, with commas between them. No items take no
lines. -/
def block (opening closing : String) (depth : Nat) (items : List String) : String :=
  if items.isEmpty then opening ++ closing
  else
    opening ++ String.intercalate "," (items.map (newline (depth + 1) ++ ·)) ++ newline depth ++
      closing

mutual

/-- A value whose first line has been begun at a given depth. -/
def prettyAt (depth : Nat) : Json → String
  | boolean value => if value then "true" else "false"
  | text value => string value
  | array elements => block "[" "]" depth (prettyElements (depth + 1) elements)
  | object members => block "\x7b" "\x7d" depth (prettyMembers (depth + 1) members)

/-- The elements of an array. -/
def prettyElements (depth : Nat) : List Json → List String
  | [] => []
  | value :: rest => value.prettyAt depth :: prettyElements depth rest

/-- The members of an object. -/
def prettyMembers (depth : Nat) : List (String × Json) → List String
  | [] => []
  | (name, value) :: rest =>
    (string name ++ ": " ++ value.prettyAt depth) :: prettyMembers depth rest

end

/-- A value over several lines. -/
def pretty (value : Json) : String := value.prettyAt 0

end Json

end Dispatch
