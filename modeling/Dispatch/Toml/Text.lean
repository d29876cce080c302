import Dispatch.Toml.Scan

/-!
# TOML strings and keys

A string is basic or literal, and on one line or on several. Only basic strings have escapes. A
string on several lines loses a line end directly behind its opening, and every line end in it
becomes a line feed. A key is a bare word or a string on one line; keys are joined by points.

## Main definitions

* `readString` — a string of any form
* `readKey` — one key
* `readPath` — keys joined by points
-/

set_option autoImplicit false

namespace Dispatch.Toml

/-- The value of a hexadecimal digit. -/
def hexValue? (c : Char) : Option Nat :=
  if '0' ≤ c && c ≤ '9' then some (c.toNat - '0'.toNat)
  else if 'a' ≤ c && c ≤ 'f' then some (c.toNat - 'a'.toNat + 10)
  else if 'A' ≤ c && c ≤ 'F' then some (c.toNat - 'A'.toNat + 10)
  else none

/-- The character whose code point is written with exactly `count` hexadecimal digits. -/
def readCodePoint (count : Nat) : Reader Char := fun s => do
  let digits ← (s.take count).mapM hexValue?
  if digits.length ≠ count then none
  else
    let code := digits.foldl (fun n digit => 16 * n + digit) 0
    if code.isValidChar then some (Char.ofNat code, s.drop count) else none

/-- The character that an escape stands for, behind its backslash. -/
def readEscape : Reader Char
  | 'b' :: rest => some ('\x08', rest)
  | 't' :: rest => some ('\t', rest)
  | 'n' :: rest => some ('\n', rest)
  | 'f' :: rest => some ('\x0c', rest)
  | 'r' :: rest => some ('\r', rest)
  | '"' :: rest => some ('"', rest)
  | '\\' :: rest => some ('\\', rest)
  | 'u' :: rest => readCodePoint 4 rest
  | 'U' :: rest => readCodePoint 8 rest
  | _ => none

/-- A piece of a basic string on one line. -/
def basicPiece : Reader (List Char × Bool)
  | [] => none
  | '"' :: rest => some (([], false), rest)
  | '\\' :: rest => (readEscape rest).map fun (c, rest) => (([c], true), rest)
  | c :: rest => if isVisible c then some (([c], true), rest) else none

/-- A piece of a literal string on one line. -/
def literalPiece : Reader (List Char × Bool)
  | [] => none
  | '\'' :: rest => some (([], false), rest)
  | c :: rest => if isVisible c then some (([c], true), rest) else none

/-- Quotes inside or at the end of a string on several lines. Fewer than three belong to the string;
of a longer run up to two belong to it and the last three end it. -/
def quoteRun (quote : Char) : Reader (List Char × Bool) := fun s =>
  let run := (s.takeWhile (· == quote)).length
  if run < 3 then some ((List.replicate run quote, true), s.drop run)
  else
    let inside := min (run - 3) 2
    some ((List.replicate inside quote, false), s.drop (inside + 3))

/-- A piece of a basic string on several lines. A backslash at the end of a line removes the line
end and all white space behind it. -/
def basicBlockPiece : Reader (List Char × Bool)
  | [] => none
  | '"' :: rest => quoteRun '"' ('"' :: rest)
  | '\\' :: rest =>
    match newline? (skipSpaces rest) with
    | some rest => some (([], true), skipWhitespace rest)
    | none => (readEscape rest).map fun (c, rest) => (([c], true), rest)
  | c :: rest =>
    match newline? (c :: rest) with
    | some rest => some ((['\n'], true), rest)
    | none => if isVisible c then some (([c], true), rest) else none

/-- A piece of a literal string on several lines. -/
def literalBlockPiece : Reader (List Char × Bool)
  | [] => none
  | '\'' :: rest => quoteRun '\'' ('\'' :: rest)
  | c :: rest =>
    match newline? (c :: rest) with
    | some rest => some ((['\n'], true), rest)
    | none => if isVisible c then some (([c], true), rest) else none

/-- Joins the pieces of a string. -/
def readPieces (piece : Reader (List Char × Bool)) : Reader String := fun s =>
  (collect piece s).map fun (chars, rest) => (String.ofList chars, rest)

/-- A string on several lines, behind its opening. -/
def readBlock (piece : Reader (List Char × Bool)) : Reader String := fun s =>
  readPieces piece ((newline? s).getD s)

/-- A string of any form. -/
def readString : Reader String
  | '"' :: '"' :: '"' :: rest => readBlock basicBlockPiece rest
  | '\'' :: '\'' :: '\'' :: rest => readBlock literalBlockPiece rest
  | '"' :: rest => readPieces basicPiece rest
  | '\'' :: rest => readPieces literalPiece rest
  | _ => none

/-- Whether a character may stand in a bare key. -/
def isBare (c : Char) : Bool := c.isAlphanum || c == '_' || c == '-'

/-- One key. -/
def readKey : Reader String
  | '"' :: rest => readPieces basicPiece rest
  | '\'' :: rest => readPieces literalPiece rest
  | s =>
    let word := s.takeWhile isBare
    if word.isEmpty then none else some (String.ofList word, s.dropWhile isBare)

/-- One key of a path, and whether a point follows. -/
def pathPiece : Reader (List String × Bool) := fun s => do
  let (key, rest) ← readKey (skipSpaces s)
  match skipSpaces rest with
  | '.' :: rest => some (([key], true), rest)
  | rest => some (([key], false), rest)

/-- Nesting is limited, and so is the number of keys in a path. -/
def depthLimit : Nat := 80

/-- Keys joined by points, with spaces around them. -/
def readPath : Reader (List String) := fun s => do
  let (keys, rest) ← collect pathPiece s
  if keys.length < depthLimit then some (keys, rest) else none

end Dispatch.Toml
