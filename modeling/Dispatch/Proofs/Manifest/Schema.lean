import Dispatch.Manifest.Declared
import Mathlib.Data.List.Forall2
import Mathlib.Data.List.Nodup
import Mathlib.Logic.Relation

/-!
# What a document may hold

The data that a manifest declares are made of four kinds of record. A table holds the fields of a record
under their keys; some keys must be written, some may be missing, and some stand for a value also when
they are missing. This file says, without decoding anything, which values fit the declared data, when one
document says no more and no less than another one, and how data are written out in full.

## Main definitions

* `Schema.Record`, `Schema.Form`, `Schema.Field` — the records, what may be declared, and the fields
* `Schema.Places` — which value stands where which form is declared
* `Schema.Form.Fits` — a value is what is declared for its place
* `Schema.SameUpToLayout` — documents that differ in the order of keys and in what goes without saying
* `Toml.Value.AppearsIn` — all that is written in one value is written in another one
* `DeclaredCommand.toValue`, `Declared.toValue` — data written out in full
-/

set_option autoImplicit false

namespace Dispatch

open Toml

/-! ### Records and their fields -/

namespace Schema

/-- The records of a manifest. -/
inductive Record where
  | settings
  | usage
  | command
  | manifest
deriving DecidableEq

/-- What is declared to stand at a place. -/
inductive Form where
  | text
  | flag
  /-- the name of a rule of precedence -/
  | precedence
  | list (element : Form)
  | record (record : Record)
deriving DecidableEq

/-- What it means that a key is missing. -/
inductive Presence where
  /-- the key must not be missing -/
  | required
  /-- nothing is said -/
  | optional
  /-- it is as if the key was written with this value -/
  | assumed (value : Value)

/-- A field of a record. -/
structure Field where
  /-- the key under which it is written -/
  key : String
  form : Form
  presence : Presence

namespace Field

/-- The rule of precedence of settings. -/
def precedence : Field := ⟨"duplicate_terminal", .precedence, .assumed (.string "last_wins")⟩

/-- The loudness of settings. -/
def warnOnDuplicate : Field := ⟨"warn_on_duplicate", .flag, .assumed (.boolean false)⟩

/-- The pattern of a usage. -/
def pattern : Field := ⟨"pattern", .text, .required⟩

/-- The permission of a usage or a command. -/
def permission : Field := ⟨"permission", .text, .optional⟩

/-- Whether a usage can be executed. -/
def executes : Field := ⟨"executes", .flag, .assumed (.boolean true)⟩

/-- The name of a command. -/
def name : Field := ⟨"name", .text, .required⟩

/-- The aliases of a command. -/
def aliases : Field := ⟨"aliases", .list .text, .assumed (.array [])⟩

/-- Whether the bare name of a command can be executed. -/
def runs : Field := ⟨"default", .flag, .assumed (.boolean false)⟩

/-- The usages of a command. -/
def usages : Field := ⟨"syntaxes", .list (.record .usage), .assumed (.array [])⟩

/-- The commands below a command. -/
def subcommands : Field := ⟨"subcommands", .list (.record .command), .assumed (.array [])⟩

/-- The settings of a manifest. -/
def settings : Field := ⟨"graph", .record .settings, .assumed (.table [])⟩

/-- The commands of a manifest. -/
def commands : Field := ⟨"commands", .list (.record .command), .assumed (.array [])⟩

end Field

/-- The fields of a record. -/
def Record.fields : Record → List Field
  | .settings => [.precedence, .warnOnDuplicate]
  | .usage => [.pattern, .permission, .executes]
  | .command => [.name, .aliases, .permission, .runs, .usages, .subcommands]
  | .manifest => [.settings, .commands]

variable {record : Record} {field other : Field} {form inner : Form} {value part : Value}
  {entries : List (String × Value)} {elements : List Value}

/-- The keys of the fields of a record are distinct. -/
theorem Record.nodup_keys (record : Record) : (record.fields.map Field.key).Nodup := by
  cases record <;> decide

theorem Record.eq_of_key (mem : field ∈ record.fields) (mem' : other ∈ record.fields)
    (same : field.key = other.key) : field = other :=
  List.inj_on_of_nodup_map record.nodup_keys mem mem' same

/-! ### Places -/

/-- In a value that stands where a form is declared, a part stands where another form is declared. Arrays
are entered where a list is declared, and tables where a record is declared. -/
inductive Places : Form → Value → Form → Value → Prop
  | self (form : Form) (value : Value) : Places form value form value
  | element {form inner : Form} {element part : Value} {elements : List Value}
      (mem : element ∈ elements) (within : Places form element inner part) :
      Places (.list form) (.array elements) inner part
  | entry {record : Record} {field : Field} {inner : Form} {value part : Value}
      {entries : List (String × Value)} (declared : field ∈ record.fields)
      (mem : (field.key, value) ∈ entries) (within : Places field.form value inner part) :
      Places (.record record) (.table entries) inner part

/-- Something holds of the value at every place, given the form that is declared there. -/
def Everywhere (holds : Form → Value → Prop) (form : Form) (value : Value) : Prop :=
  ∀ inner part, Places form value inner part → holds inner part

variable {holds : Form → Value → Prop}

theorem Everywhere.here (everywhere : Everywhere holds form value) : holds form value :=
  everywhere form value (.self form value)

theorem everywhere_list_iff : Everywhere holds (.list form) (.array elements) ↔
    holds (.list form) (.array elements) ∧ ∀ element ∈ elements, Everywhere holds form element := by
  constructor
  · intro everywhere
    exact ⟨everywhere.here, fun element mem inner part within =>
      everywhere inner part (.element mem within)⟩
  · rintro ⟨here, below⟩ inner part place
    cases place with
    | self => exact here
    | element mem within => exact below _ mem inner part within

theorem everywhere_record_iff : Everywhere holds (.record record) (.table entries) ↔
    holds (.record record) (.table entries) ∧ ∀ field ∈ record.fields, ∀ value,
      (field.key, value) ∈ entries → Everywhere holds field.form value := by
  constructor
  · intro everywhere
    exact ⟨everywhere.here, fun field declared value mem inner part within =>
      everywhere inner part (.entry declared mem within)⟩
  · rintro ⟨here, below⟩ inner part place
    cases place with
    | self => exact here
    | entry declared mem within => exact below _ declared _ mem inner part within

theorem everywhere_of_no_elements (here : holds (.list form) (.array [])) :
    Everywhere holds (.list form) (.array []) :=
  everywhere_list_iff.mpr ⟨here, nofun⟩

theorem everywhere_of_no_entries (here : holds (.record record) (.table [])) :
    Everywhere holds (.record record) (.table []) :=
  everywhere_record_iff.mpr ⟨here, nofun⟩

/-- Where such a form is declared, there are no places below. -/
def Form.IsBare : Form → Prop
  | .text | .flag | .precedence => True
  | .list _ | .record _ => False

theorem Form.bare_or_list_or_record (form : Form) :
    form.IsBare ∨ (∃ element, form = .list element) ∨ ∃ record, form = .record record := by
  cases form <;> simp [IsBare]

theorem everywhere_iff_of_bare (bare : form.IsBare) :
    Everywhere holds form value ↔ holds form value := by
  constructor
  · exact Everywhere.here
  · intro here inner part place
    cases place with
    | self => exact here
    | element => exact bare.elim
    | entry => exact bare.elim

/-! ### Fitting values -/

/-- The value at a place is what is declared there: it has the declared type, the name of a rule of
precedence is that of a rule, and a record is a table of declared keys in which no required key is
missing. -/
def Form.Fits : Form → Value → Prop
  | .text, value => ∃ text, value = .string text
  | .flag, value => ∃ flag, value = .boolean flag
  | .precedence, value => ∃ precedence : Precedence, value = .string precedence.name
  | .list _, value => ∃ elements, value = .array elements
  | .record record, value => ∃ entries, value = .table entries ∧
      (∀ entry ∈ entries, ∃ field ∈ record.fields, field.key = entry.1) ∧
      ∀ field ∈ record.fields, field.presence = .required → field.key ∈ entries.map Prod.fst

/-- A record is not given by an array of its fields, and a rule of precedence is given by a text. -/
def Form.IsKeyed : Form → Value → Prop
  | .record _, .array _ => False
  | .precedence, value => ∃ text, value = .string text
  | _, _ => True

/-- A table in which a record is declared does not have a key twice. -/
def Form.HasDistinctKeys : Form → Value → Prop
  | .record _, .table entries => (entries.map Prod.fst).Nodup
  | _, _ => True

/-! ### Layout -/

/-- One value differs from another one, at some place, by the order of keys or by a key that goes without
saying. -/
inductive Tidies : Form → Value → Value → Prop
  /-- the keys of a record are put into another order -/
  | reorder {record : Record} {entries entries' : List (String × Value)}
      (reordered : entries.Perm entries') :
      Tidies (.record record) (.table entries) (.table entries')
  /-- a key is left out that has the value which is assumed without it -/
  | leaveOut {record : Record} {field : Field} {value : Value} {before after : List (String × Value)}
      (declared : field ∈ record.fields) (assumed : field.presence = .assumed value)
      (fresh : field.key ∉ (before ++ after).map Prod.fst) :
      Tidies (.record record) (.table (before ++ (field.key, value) :: after))
        (.table (before ++ after))
  /-- an element of a list is tidied -/
  | element {form : Form} {value value' : Value} {before after : List Value}
      (within : Tidies form value value') :
      Tidies (.list form) (.array (before ++ value :: after)) (.array (before ++ value' :: after))
  /-- the value of a field is tidied -/
  | entry {record : Record} {field : Field} {value value' : Value} {before after : List (String × Value)}
      (declared : field ∈ record.fields) (within : Tidies field.form value value') :
      Tidies (.record record) (.table (before ++ (field.key, value) :: after))
        (.table (before ++ (field.key, value') :: after))

/-- Two values are equal up to the order of keys and the presence of keys that go without saying. -/
def SameUpToLayout (form : Form) : Value → Value → Prop := Relation.EqvGen (Tidies form)

end Schema

/-! ### Writing data out -/

/-- Everything that is written in one value is written in another one: the values of the same keys appear
in each other, and so do the elements of arrays, one by one. -/
inductive Toml.Value.AppearsIn : Value → Value → Prop
  | refl (value : Value) : AppearsIn value value
  | array {parts elements : List Value} (each : List.Forall₂ AppearsIn parts elements) :
      AppearsIn (.array parts) (.array elements)
  | table {parts entries : List (String × Value)}
      (present : ∀ key part, (key, part) ∈ parts → ∃ value, entries.lookup key = some value)
      (each : ∀ key part value, (key, part) ∈ parts → entries.lookup key = some value →
        AppearsIn part value) :
      AppearsIn (.table parts) (.table entries)

/-- The entry of a permission, if there is one. -/
def permissionEntry (permission : Option String) : List (String × Value) :=
  permission.toList.map fun name => ("permission", .string name)

/-- Settings written out in full. -/
def Settings.toValue (settings : Settings) : Value :=
  .table [("duplicate_terminal", .string settings.precedence.name),
    ("warn_on_duplicate", .boolean settings.warnOnDuplicate)]

/-- A usage written out in full. -/
def DeclaredUsage.toValue (declared : DeclaredUsage) : Value :=
  .table ([("pattern", .string declared.pattern)] ++ permissionEntry declared.permission ++
    [("executes", .boolean declared.executes)])

namespace DeclaredCommand

mutual

/-- A command written out in full. -/
def toValue : DeclaredCommand → Value
  | ⟨name, aliases, permission, runs, usages, subcommands⟩ =>
    .table ([("name", .string name), ("aliases", .array (aliases.map .string))] ++
      permissionEntry permission ++
      [("default", .boolean runs), ("syntaxes", .array (usages.map DeclaredUsage.toValue)),
        ("subcommands", .array (toValues subcommands))])

/-- Commands written out in full. -/
def toValues : List DeclaredCommand → List Value
  | [] => []
  | declared :: rest => declared.toValue :: toValues rest

end

theorem toValues_eq (declared : List DeclaredCommand) : toValues declared = declared.map toValue := by
  induction declared with
  | nil => rfl
  | cons first rest ih => rw [toValues, ih, List.map_cons]

end DeclaredCommand

/-- What a manifest declares, written out in full. -/
def Declared.toValue (declared : Declared) : Value :=
  .table [("graph", declared.settings.toValue),
    ("commands", .array (declared.commands.map DeclaredCommand.toValue))]

end Dispatch
