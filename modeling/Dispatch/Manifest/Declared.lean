import Dispatch.Settings
import Dispatch.Text.Quoted
import Dispatch.Toml.Document

/-!
# Declared data

A manifest is a TOML document that declares settings and commands. This file has the data as
declared and decodes it from TOML values. Decoding is strict: a key that is not known is refused, as
is a value of another type. The keys of a table are decoded in the order of the document, a key that
is missing is noticed after them, and the first misfit is the answer. Where a record is declared,
an array of its fields in order is accepted too.

## Main definitions

* `DeclaredUsage`, `DeclaredCommand`, `Declared` — the data
* `Misfit` — why a document does not fit
* `Declared.decode`, `Settings.decode` — the decoders
* `Declared.ofText`, `Settings.ofText` — from the text of a document
-/

set_option autoImplicit false

namespace Dispatch

open Toml

/-- A declared usage of a command. -/
structure DeclaredUsage where
  pattern : String
  permission : Option String
  /-- whether the usage can be executed, or is only a guard -/
  executes : Bool
deriving DecidableEq

/-- A declared command. -/
structure DeclaredCommand where
  name : String
  aliases : List String
  permission : Option String
  /-- whether the bare name can be executed -/
  runs : Bool
  usages : List DeclaredUsage
  subcommands : List DeclaredCommand

namespace DeclaredCommand

mutual

/-- Declared commands are compared by their parts, subcommands included. -/
def decEq : (command other : DeclaredCommand) → Decidable (command = other)
  | ⟨name, aliases, permission, runs, usages, subcommands⟩,
      ⟨name', aliases', permission', runs', usages', subcommands'⟩ =>
    have := decEqs subcommands subcommands'
    decidable_of_iff
      ((name, aliases, permission, runs, usages) = (name', aliases', permission', runs', usages') ∧
        subcommands = subcommands') (by simp [and_assoc])

/-- Lists of declared commands are compared one by one. -/
def decEqs : (commands others : List DeclaredCommand) → Decidable (commands = others)
  | [], [] => isTrue rfl
  | [], _ :: _ => isFalse nofun
  | _ :: _, [] => isFalse nofun
  | command :: rest, other :: others =>
    have := command.decEq other
    have := decEqs rest others
    decidable_of_iff (command = other ∧ rest = others) (by simp)

end

instance : DecidableEq DeclaredCommand := decEq

end DeclaredCommand

/-- What a manifest declares. -/
structure Declared where
  settings : Settings
  commands : List DeclaredCommand
deriving DecidableEq

/-- What was found where something else was wanted. -/
inductive Found where
  | string (text : String)
  | integer (value : Int)
  | float (value : Binary64)
  | boolean (value : Bool)
  | sequence
  | map
deriving DecidableEq

/-- Why a document does not fit the declared data. -/
inductive Misfit where
  | unknownField (field : String) (known : List String)
  | missingField (field : String)
  | unknownPrecedence (name : String)
  | wrongType (found : Found) (wanted : String)
  /-- an array of fields ends too early -/
  | tooShort
  /-- a rule of precedence that is not named by a text -/
  | precedenceNotText
deriving DecidableEq

/-- Why a text does not declare anything. -/
inductive DocumentError where
  /-- it is no TOML document -/
  | malformed
  | misfit (misfit : Misfit)
deriving DecidableEq

/-- A name or a number set off from the words of a message. -/
def setOff (name : String) : String := "`" ++ name ++ "`"

/-- A value as a message shows it. -/
def Found.shown : Found → String
  | string text => "string " ++ Text.quoted text
  | integer value => "integer " ++ setOff (toString value)
  | float value => "floating point " ++ setOff value.text
  | boolean value => "boolean " ++ setOff (if value then "true" else "false")
  | sequence => "sequence"
  | map => "map"

/-- What was found in place of a value. -/
def Found.ofValue : Value → Found
  | .string text => string text
  | .integer value => integer value
  | .float value => float value
  | .boolean value => boolean value
  | .dateTime _ => map
  | .array _ => sequence
  | .table _ => map

/-- Names of which one was wanted. -/
def alternatives (names : List String) : String :=
  let shown := names.map setOff
  match shown with
  | [first, second] => first ++ " or " ++ second
  | _ => "one of " ++ String.intercalate ", " shown

/-- The misfit in words. There are none for an array that is too short, nor for a rule of precedence
that is not a text. -/
def Misfit.message? : Misfit → Option String
  | unknownField field known =>
    some ("unknown field " ++ setOff field ++ ", expected " ++ alternatives known)
  | missingField field => some ("missing field " ++ setOff field)
  | unknownPrecedence name =>
    some ("unknown variant " ++ setOff name ++ ", expected " ++
      alternatives [Precedence.lastWins.name, Precedence.keepFirst.name])
  | wrongType found wanted => some ("invalid type: " ++ found.shown ++ ", expected " ++ wanted)
  | tooShort => none
  | precedenceNotText => none

/-- A decoding step. -/
abbrev Decode := Except Misfit

namespace Decode

/-- Refuses a value of another type. -/
def refuse {α : Type} (wanted : String) (value : Value) : Decode α :=
  .error (.wrongType (Found.ofValue value) wanted)

/-- A text. -/
def text : Value → Decode String
  | .string text => .ok text
  | value => refuse "a string" value

/-- A truth value. -/
def boolean : Value → Decode Bool
  | .boolean value => .ok value
  | value => refuse "a boolean" value

/-- The elements of an array. -/
def elements : Value → Decode (List Value)
  | .array elements => .ok elements
  | value => refuse "a sequence" value

/-- A field that must be given. -/
def required {α : Type} (field : String) : Option α → Decode α
  | some value => .ok value
  | none => .error (.missingField field)

/-- The key under which a date shows itself where a record is wanted. -/
def dateTimeKey : String := "$__toml_private_datetime"

end Decode

open Decode

/-- The fields of settings. -/
def Settings.fieldNames : List String := ["duplicate_terminal", "warn_on_duplicate"]

/-- The fields of a usage. -/
def DeclaredUsage.fieldNames : List String := ["pattern", "permission", "executes"]

/-- The fields of a command. -/
def DeclaredCommand.fieldNames : List String :=
  ["name", "aliases", "permission", "default", "syntaxes", "subcommands"]

/-- The fields of a manifest. -/
def Declared.fieldNames : List String := ["graph", "commands"]

/-- A rule of precedence, by its name. A table with the name as its only key and nothing in it names
the rule too. -/
def Precedence.decode : Value → Decode Precedence
  | .string name =>
    match Precedence.ofName? name with
    | some precedence => .ok precedence
    | none => .error (.unknownPrecedence name)
  | .table [(name, .table [])] => (Precedence.ofName? name).elim (.error .precedenceNotText) .ok
  | .table [(name, .array [])] => (Precedence.ofName? name).elim (.error .precedenceNotText) .ok
  | _ => .error .precedenceNotText

namespace Settings

/-- Sets a field of settings. -/
def decodeField (settings : Settings) : String × Value → Decode Settings
  | ("duplicate_terminal", value) => do
    return { settings with precedence := ← Precedence.decode value }
  | ("warn_on_duplicate", value) => do
    return { settings with warnOnDuplicate := ← boolean value }
  | (field, _) => .error (.unknownField field fieldNames)

/-- Settings. What is not given has its default. -/
def decode : Value → Decode Settings
  | .table entries => entries.foldlM decodeField {}
  | .array elements => (fieldNames.zip elements).foldlM decodeField {}
  | .dateTime _ => .error (.unknownField dateTimeKey fieldNames)
  | value => refuse "struct GraphConfig" value

end Settings

namespace DeclaredUsage

/-- A usage of which some fields are known. -/
structure Draft where
  pattern : Option String := none
  permission : Option String := none
  executes : Bool := true

/-- Sets a field of a usage. -/
def decodeField (draft : Draft) : String × Value → Decode Draft
  | ("pattern", value) => return { draft with pattern := some (← text value) }
  | ("permission", value) => return { draft with permission := some (← text value) }
  | ("executes", value) => return { draft with executes := ← boolean value }
  | (field, _) => .error (.unknownField field fieldNames)

/-- A usage whose fields have all been seen. -/
def Draft.finish (draft : Draft) : Decode DeclaredUsage := do
  return ⟨← required "pattern" draft.pattern, draft.permission, draft.executes⟩

/-- A usage. Its pattern must be given; in an array the permission, too. -/
def decode : Value → Decode DeclaredUsage
  | .table entries => do (← entries.foldlM decodeField {}).finish
  | .array elements => do
    let draft ← (fieldNames.zip elements).foldlM decodeField {}
    if elements.length < 2 then .error .tooShort else draft.finish
  | .dateTime _ => .error (.unknownField dateTimeKey fieldNames)
  | value => refuse "struct TomlSyntax" value

end DeclaredUsage

namespace DeclaredCommand

/-- A command of which some fields are known. -/
structure Draft where
  name : Option String := none
  aliases : List String := []
  permission : Option String := none
  runs : Bool := false
  usages : List DeclaredUsage := []
  subcommands : List DeclaredCommand := []

/-- A command whose fields have all been seen. -/
def Draft.finish (draft : Draft) : Decode DeclaredCommand := do
  return ⟨← required "name" draft.name, draft.aliases, draft.permission, draft.runs, draft.usages,
    draft.subcommands⟩

/-- Sets a field of a command that holds no commands. -/
def decodeField (draft : Draft) (field : String) (value : Value) : Decode Draft :=
  match field with
  | "name" => return { draft with name := some (← text value) }
  | "aliases" => return { draft with aliases := ← (← elements value).mapM text }
  | "permission" => return { draft with permission := some (← text value) }
  | "default" => return { draft with runs := ← boolean value }
  | "syntaxes" => return { draft with usages := ← (← elements value).mapM DeclaredUsage.decode }
  | _ => .error (.unknownField field fieldNames)

mutual

/-- A command. Its name must be given; in an array the permission, its third field, too. -/
def decode : Value → Decode DeclaredCommand
  | .table entries => do (← decodeEntries {} entries).finish
  | .array elements => do
    let draft ← decodeElements {} fieldNames elements
    if elements.length < 3 then .error .tooShort else draft.finish
  | .dateTime _ => .error (.unknownField dateTimeKey fieldNames)
  | value => refuse "struct TomlCommand" value

/-- Sets the fields that a table gives, in its order. -/
def decodeEntries (draft : Draft) : List (String × Value) → Decode Draft
  | [] => .ok draft
  | (field, value) :: rest => do
    let draft ←
      if field = "subcommands" then do
        let subcommands ← decodeAll value
        pure { draft with subcommands }
      else decodeField draft field value
    decodeEntries draft rest

/-- Sets the fields that an array gives, as far as it goes. -/
def decodeElements (draft : Draft) : List String → List Value → Decode Draft
  | field :: fields, value :: rest => do
    let draft ←
      if field = "subcommands" then do
        let subcommands ← decodeAll value
        pure { draft with subcommands }
      else decodeField draft field value
    decodeElements draft fields rest
  | _, _ => .ok draft

/-- An array of commands. -/
def decodeAll : Value → Decode (List DeclaredCommand)
  | .array elements => decodeEach elements
  | value => refuse "a sequence" value

/-- Each element of an array as a command. -/
def decodeEach : List Value → Decode (List DeclaredCommand)
  | [] => .ok []
  | value :: rest => return (← decode value) :: (← decodeEach rest)

end

end DeclaredCommand

namespace Declared

/-- Sets a field of a manifest. -/
def decodeField (declared : Declared) : String × Value → Decode Declared
  | ("graph", value) => return { declared with settings := ← Settings.decode value }
  | ("commands", value) => return { declared with commands := ← DeclaredCommand.decodeAll value }
  | (field, _) => .error (.unknownField field fieldNames)

/-- A manifest. What is not given has its default. -/
def decode (entries : List (String × Value)) : Decode Declared :=
  entries.foldlM decodeField ⟨{}, []⟩

/-- Decodes a text with a decoder for its outermost table. -/
def ofDocument {α : Type} (decoder : List (String × Value) → Decode α) (text : String)
    (read : DocumentReader) : Except DocumentError α :=
  match read text with
  | none => .error .malformed
  | some entries =>
    match decoder entries with
    | .ok value => .ok value
    | .error misfit => .error (.misfit misfit)

/-- What the text of a manifest declares, given how documents are read. -/
def ofText (text : String) (read : DocumentReader := Toml.ofDocument?) :
    Except DocumentError Declared :=
  ofDocument decode text read

end Declared

/-- The settings that a text gives, given how documents are read. -/
def Settings.ofText (text : String) (read : DocumentReader := Toml.ofDocument?) :
    Except DocumentError Settings :=
  Declared.ofDocument (fun entries => Settings.decode (.table entries)) text read

end Dispatch
