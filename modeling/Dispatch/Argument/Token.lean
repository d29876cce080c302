import Dispatch.Argument.Basic
import Dispatch.Text.Blank
import Dispatch.Text.Lowercase

/-!
# Reading arguments

A pattern such as `give <who:player> <count:int>` is read word by word. A word in angle brackets is
a placeholder, its name and the spelling of its kind being divided by the first colon; any other
word is a keyword, in which brackets and colons are refused.

## Main definitions

* `Kind.ofSpelling?` — the kind that a lowercase spelling stands for
* `Kind.parse` — reads a kind in any letter case
* `ArgumentError` — why a word is not an argument
* `Argument.parse` — reads one word
* `Argument.parseAll` — reads all words of a text
-/

set_option autoImplicit false

namespace Dispatch

open Text

/-- Why a text is not an argument. -/
inductive ArgumentError where
  /-- the text is blank -/
  | emptyToken
  /-- a keyword holds a bracket or a colon -/
  | malformedLiteral (token : String)
  /-- there is no closing bracket at the end -/
  | unterminatedPlaceholder (token : String)
  /-- there is no colon between the brackets -/
  | missingKind (token : String)
  /-- nothing stands before the colon -/
  | missingName (token : String)
  /-- the lowercase spelling stands for no kind -/
  | unknownKind (spelling : String)
deriving DecidableEq, Repr

/-- What went wrong, in words. -/
def ArgumentError.message : ArgumentError → String
  | emptyToken => "empty token"
  | malformedLiteral token => "malformed literal '" ++ token ++ "'"
  | unterminatedPlaceholder token => "unterminated placeholder '" ++ token ++ "'"
  | missingKind token => "placeholder '" ++ token ++ "' needs name:kind"
  | missingName token => "placeholder '" ++ token ++ "' has no name"
  | unknownKind spelling => "unknown argument kind '" ++ spelling ++ "'"

/-- The message with the class of the error in front. -/
def ArgumentError.report (error : ArgumentError) : String :=
  "Invalid argument token: " ++ error.message

/-- The kind that a lowercase spelling stands for. -/
def Kind.ofSpelling? : String → Option Kind
  | "word" => some .word
  | "string" => some .string
  | "greedy" => some .greedy
  | "integer" => some .integer
  | "int" => some .integer
  | "double" => some .double
  | "float" => some .double
  | "boolean" => some .boolean
  | "bool" => some .boolean
  | "entity" => some .entity
  | "player" => some .player
  | _ => none

/-- Reads a kind in any letter case. -/
def Kind.parse (spelling : List Char) : Except ArgumentError Kind :=
  let lowered := String.ofList (lowercase spelling)
  match Kind.ofSpelling? lowered with
  | some kind => .ok kind
  | none => .error (.unknownKind lowered)

namespace Argument

/-- Whether a character may not stand in a keyword. -/
def isReserved (c : Char) : Bool := c == '<' || c == '>' || c == ':'

/-- The text before the last character and that character, or nothing for the empty text. -/
def splitLast? : List Char → Option (List Char × Char)
  | [] => none
  | [c] => some ([], c)
  | c :: d :: rest => (splitLast? (d :: rest)).map fun (start, last) => (c :: start, last)

/-- The texts before and after the first colon. -/
def splitColon? : List Char → Option (List Char × List Char)
  | [] => none
  | c :: rest =>
    if c = ':' then some ([], rest)
    else (splitColon? rest).map fun (name, kind) => (c :: name, kind)

/-- Reads what follows the opening bracket of a placeholder; `token` is the whole word. -/
def parsePlaceholder (token : String) (inner : List Char) : Except ArgumentError Argument :=
  match splitLast? inner with
  | some (body, '>') =>
    match splitColon? body with
    | none => .error (.missingKind token)
    | some ([], _) => .error (.missingName token)
    | some (name, spelling) => do
      return .typed (String.ofList name) (← Kind.parse spelling) none
  | _ => .error (.unterminatedPlaceholder token)

/-- Reads a text without blanks at its ends. -/
def parseTrimmed (token : List Char) : Except ArgumentError Argument :=
  match token with
  | [] => .error .emptyToken
  | '<' :: inner => parsePlaceholder (String.ofList token) inner
  | _ =>
    if token.any isReserved then .error (.malformedLiteral (String.ofList token))
    else .ok (.literal (String.ofList token))

/-- Reads one argument. Blanks around it do not count. -/
def parse (text : String) : Except ArgumentError Argument :=
  parseTrimmed (trim text.toList)

/-- Reads every word of a text; the first word that is no argument decides the error. -/
def parseAll (text : String) : Except ArgumentError (List Argument) :=
  (words text.toList).mapM fun word => parse (String.ofList word)

end Argument

end Dispatch
