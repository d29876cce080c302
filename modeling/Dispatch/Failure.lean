import Dispatch.Manifest.Basic

/-!
# Failures

Everything that can go wrong has a class and, in most cases, words.

## Main definitions

* `Failure` — a failure of any part of the library
* `Failure.category`, `Failure.detail?` — its class and its words
* `Failure.message?` — the words with the class in front
* `Failure.inspect` — class and words as a record
* `Source.text` — the text of a file
-/

set_option autoImplicit false

namespace Dispatch

/-- A failure of any part of the library. -/
inductive Failure where
  | argument (error : ArgumentError)
  | compilation (error : CompileError)
  | declaration (error : ManifestError)
  | document (error : DocumentError)
  /-- a file of settings that are no settings -/
  | settingsFile (error : DocumentError)
  /-- no command of a manifest has the name -/
  | unknownCommand (name : String)
  /-- a file is missing or holds no text -/
  | unreadable
deriving DecidableEq

/-- The class of a failure. -/
inductive Category where
  | invalidInput
  | invalidArgument
  | capacityExceeded
  | declaration
  | unreadable
  | document
deriving DecidableEq, Repr

namespace Category

/-- The name of a class. -/
def name : Category → String
  | invalidInput => "InvalidInput"
  | invalidArgument => "InvalidArgument"
  | capacityExceeded => "CapacityExceeded"
  | declaration => "Declaration"
  | unreadable => "IoError"
  | document => "TomlError"

/-- What stands in front of the words of a failure. -/
def introduction : Category → String
  | invalidInput => "Invalid input: "
  | invalidArgument => "Invalid argument token: "
  | capacityExceeded => "Graph capacity exceeded: "
  | declaration => "Declaration error: "
  | unreadable => ""
  | document => ""

end Category

namespace Failure

/-- The class of a failure. -/
def category : Failure → Category
  | argument _ => .invalidArgument
  | compilation (.invalid _) => .invalidInput
  | compilation (.capacityExceeded _) => .capacityExceeded
  | declaration _ => .declaration
  | document _ => .document
  | settingsFile _ => .declaration
  | unknownCommand _ => .invalidInput
  | unreadable => .unreadable

/-- The words of a failure, where it has any of its own. -/
def detail? : Failure → Option String
  | argument error => some error.message
  | compilation (.invalid cause) => some cause.message
  | compilation (.capacityExceeded index) =>
    some ("node index " ++ toString index ++ " exceeds u32::MAX")
  | declaration error => some error.message
  | document .malformed => none
  | document (.misfit misfit) => misfit.message?
  | settingsFile _ => none
  | unknownCommand name => some ("no command named '" ++ name ++ "'")
  | unreadable => none

/-- The words with the class in front. -/
def message? (failure : Failure) : Option String :=
  failure.detail?.map (failure.category.introduction ++ ·)

/-- Class and words as a record. Failures that come from elsewhere show only their class. -/
def inspect (failure : Failure) : String :=
  match failure.category, failure.detail? with
  | .document, _ => Category.document.name
  | category, none => category.name
  | category, some detail => category.name ++ "(" ++ Text.quoted detail ++ ")"

/-- The failure behind the refusal of a manifest. -/
def ofReadError : Manifest.ReadError → Failure
  | .document error => document error
  | .declaration error => declaration error

end Failure

namespace Source

/-- The text of a file, given its bytes if there is such a file. -/
def text (bytes : Option ByteArray) : Except Failure String :=
  match bytes.bind String.fromUTF8? with
  | some text => .ok text
  | none => .error .unreadable

end Source

end Dispatch
