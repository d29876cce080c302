import Dispatch.Toml.Scalar
import Dispatch.Toml.Table
import Dispatch.Toml.Text

/-!
# TOML documents

A document is read line by line into headers and entries, and these are put together to one table.
The answer to a text that is no document is `none`.

## Main definitions

* `readValue` — a value, nested no deeper than allowed
* `Line` — a header or an entry
* `readLine` — one line
* `assemble` — the table that lines describe
* `ofDocument?` — the table that a text describes
-/

set_option autoImplicit false

namespace Dispatch.Toml

/-- A path, an equals sign and a value. -/
def readEntry (value : Reader Value) : Reader (List String × Value) := fun s => do
  let (path, rest) ← readPath s
  match rest with
  | '=' :: rest =>
    let (value, rest) ← value (skipSpaces rest)
    some ((path, value), rest)
  | _ => none

/-- An element of an array and what follows it, or the end of the array. -/
def arrayPiece (value : Reader Value) : Reader (List Value × Bool) := fun s =>
  match skipLines s with
  | ']' :: rest => some (([], false), rest)
  | s => do
    let (element, rest) ← value s
    match skipLines rest with
    | ',' :: rest => some (([element], true), rest)
    | ']' :: rest => some (([element], false), rest)
    | _ => none

/-- An entry of an inline table and what follows it. -/
def inlinePiece (value : Reader Value) : Reader (List (List String × Value) × Bool) := fun s => do
  let (entry, rest) ← readEntry value s
  match skipSpaces rest with
  | ',' :: rest => some (([entry], true), rest)
  | '\x7d' :: rest => some (([entry], false), rest)
  | _ => none

/-- A table on one line, behind its opening brace. -/
def readInline (value : Reader Value) : Reader Value := fun s =>
  match skipSpaces s with
  | '\x7d' :: rest => some (.table [], rest)
  | s => do
    let (entries, rest) ← collect (inlinePiece value) s
    let table ← entries.foldlM (fun table (path, value) => putEntry path value table) []
    some (.table (entriesToValues table), rest)

/-- A value whose arrays and inline tables are nested at most to a given depth. -/
def readValue : Nat → Reader Value
  | _, '"' :: rest => (readString ('"' :: rest)).map fun (text, rest) => (.string text, rest)
  | _, '\'' :: rest => (readString ('\'' :: rest)).map fun (text, rest) => (.string text, rest)
  | 0, '[' :: _ => none
  | 0, '\x7b' :: _ => none
  | depth + 1, '[' :: rest =>
    (collect (arrayPiece (readValue depth)) rest).map fun (elements, rest) =>
      (.array elements, rest)
  | depth + 1, '\x7b' :: rest => readInline (readValue depth) rest
  | _, s =>
    let (word, rest) := scalarWord s
    (Value.ofWord? word).map fun value => (value, rest)

/-- What a line of a document says. -/
inductive Line where
  /-- opens a table -/
  | header (path : List String)
  /-- opens an element of an array of tables -/
  | element (path : List String)
  /-- gives a value to a key of the table that is open -/
  | entry (path : List String) (value : Value)

/-- The statement of a line, without the end of the line. -/
def readStatement : Reader Line
  | '[' :: '[' :: rest => do
    let (path, rest) ← readPath rest
    match rest with
    | ']' :: ']' :: rest => some (.element path, rest)
    | _ => none
  | '[' :: rest => do
    let (path, rest) ← readPath rest
    match rest with
    | ']' :: rest => some (.header path, rest)
    | _ => none
  | s => (readEntry (readValue (depthLimit - 1)) s).map fun ((path, value), rest) =>
    (.entry path value, rest)

/-- A line of a document, which may be empty or hold only a comment, or the end of the document. -/
def readLine : Reader (List Line × Bool) := fun s =>
  match skipSpaces s with
  | [] => some (([], false), [])
  | s =>
    match lineEnd? s with
    | some rest => some (([], true), rest)
    | none => do
      let (line, rest) ← readStatement s
      some (([line], true), ← lineEnd? rest)

/-- The lines of a document. A mark of the byte order in front of it does not count. -/
def readLines (s : List Char) : Option (List Line) :=
  let s := match s with
    | '\ufeff' :: rest => rest
    | s => s
  (collect readLine s).map (·.1)

/-- The table that is open, and all tables so far. -/
structure Assembly where
  opened : List String
  entries : Entries

/-- Adds what a line says. -/
def Assembly.add (assembly : Assembly) : Line → Option Assembly
  | .header path => return ⟨path, ← openTable path assembly.entries⟩
  | .element path => return ⟨path, ← openElement path assembly.entries⟩
  | .entry path value =>
    return ⟨assembly.opened,
      ← changeOpened assembly.opened (putEntry path value) assembly.entries⟩

/-- The table that lines describe. -/
def assemble (lines : List Line) : Option (List (String × Value)) :=
  (lines.foldlM Assembly.add ⟨[], []⟩).map fun assembly => entriesToValues assembly.entries

/-- The entries of the table that a text describes. -/
def ofDocument? : DocumentReader := fun text => do
  assemble (← readLines text.toList)

end Dispatch.Toml
