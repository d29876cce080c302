/-!
# Scanning text

Readers take a text from its beginning and leave the rest. The loop at the end of this file is the
only one that the TOML readers use; it ends because a step that reads nothing is refused.

## Main definitions

* `Reader` — a reader of values of some type
* `skipSpaces`, `newline?`, `skipComment`, `lineEnd?`, `skipLines` — what stands between tokens
* `collect` — repeats a step and joins what the steps read
-/

set_option autoImplicit false

namespace Dispatch.Toml

/-- A reader takes something from the beginning of a text and leaves the rest, or refuses. -/
abbrev Reader (α : Type) := List Char → Option (α × List Char)

/-- Whether a character separates tokens within a line. -/
def isSpace (c : Char) : Bool := c == ' ' || c == '\t'

/-- Whether a character may stand in a comment: no control character but the tabulator. -/
def isVisible (c : Char) : Bool := c == '\t' || (' ' ≤ c && c != '\x7f')

/-- The text behind the spaces at its beginning. -/
def skipSpaces (s : List Char) : List Char := s.dropWhile isSpace

/-- The text behind the line end at its beginning. -/
def newline? : List Char → Option (List Char)
  | '\n' :: rest => some rest
  | '\r' :: '\n' :: rest => some rest
  | _ => none

/-- The text behind a comment, if it begins with one. -/
def skipComment : List Char → List Char
  | '#' :: rest => rest.dropWhile isVisible
  | s => s

/-- The text behind the rest of a line on which only spaces and a comment are left. -/
def lineEnd? (s : List Char) : Option (List Char) :=
  match skipComment (skipSpaces s) with
  | [] => some []
  | rest => newline? rest

/-- The text behind spaces, comments and line ends. A comment must end with its line. -/
def skipLines (s : List Char) : List Char :=
  match newline? (skipComment (skipSpaces s)) with
  | some rest => if rest.length < s.length then skipLines rest else skipSpaces s
  | none => skipSpaces s
termination_by s.length

/-- The text behind spaces and line ends. -/
def skipWhitespace : List Char → List Char
  | ' ' :: rest => skipWhitespace rest
  | '\t' :: rest => skipWhitespace rest
  | '\n' :: rest => skipWhitespace rest
  | '\r' :: '\n' :: rest => skipWhitespace rest
  | s => s

/-- Repeats a step and joins the items that the steps read. A step tells besides its items whether
there is more to come; one that promises more without reading anything is refused. -/
def collect {α : Type} (step : Reader (List α × Bool)) (s : List Char) :
    Option (List α × List Char) :=
  match step s with
  | none => none
  | some ((items, false), rest) => some (items, rest)
  | some ((items, true), rest) =>
    if rest.length < s.length then
      (collect step rest).map fun (more, final) => (items ++ more, final)
    else none
termination_by s.length

end Dispatch.Toml
