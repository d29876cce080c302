import Dispatch.Decimal.Binary64

/-!
# TOML values

## Main definitions

* `Toml.Value` — a value of a TOML document; the entries of a table are in the order of the document
* `Toml.Value.same` — whether two values are the same
* `Toml.DocumentReader` — a way to read the text of a document
-/

set_option autoImplicit false

namespace Dispatch.Toml

/-- A value of a TOML document. -/
inductive Value where
  | string (text : String)
  | integer (value : Int)
  | float (value : Binary64)
  | boolean (value : Bool)
  /-- a date, a time or both, as written -/
  | dateTime (text : String)
  | array (elements : List Value)
  /-- entries in the order of the document -/
  | table (entries : List (String × Value))

namespace Value

mutual

/-- Whether two values are the same. -/
def same : Value → Value → Bool
  | string text, string other => text = other
  | integer value, integer other => value = other
  | float value, float other => value = other
  | boolean value, boolean other => value = other
  | dateTime text, dateTime other => text = other
  | array elements, array others => sameElements elements others
  | table entries, table others => sameEntries entries others
  | _, _ => false

/-- Whether two lists of values are the same. -/
def sameElements : List Value → List Value → Bool
  | [], [] => true
  | value :: rest, other :: others => value.same other && sameElements rest others
  | _, _ => false

/-- Whether two lists of entries are the same. -/
def sameEntries : List (String × Value) → List (String × Value) → Bool
  | [], [] => true
  | (key, value) :: rest, (key', other) :: others =>
    key = key' && value.same other && sameEntries rest others
  | _, _ => false

end

mutual

theorem same_iff : ∀ value other : Value, value.same other = true ↔ value = other
  | string _, other | integer _, other | float _, other | boolean _, other | dateTime _, other => by
    cases other <;> simp [same]
  | array elements, other => by
    cases other with
    | array others => simp [same, sameElements_iff elements others]
    | _ => simp [same]
  | table entries, other => by
    cases other with
    | table others => simp [same, sameEntries_iff entries others]
    | _ => simp [same]

theorem sameElements_iff :
    ∀ elements others : List Value, sameElements elements others = true ↔ elements = others
  | [], [] | [], _ :: _ | _ :: _, [] => by simp [sameElements]
  | value :: rest, other :: others => by
    simp [sameElements, same_iff value other, sameElements_iff rest others]

theorem sameEntries_iff :
    ∀ entries others : List (String × Value), sameEntries entries others = true ↔ entries = others
  | [], [] | [], _ :: _ | _ :: _, [] => by simp [sameEntries]
  | (key, value) :: rest, (key', other) :: others => by
    simp [sameEntries, same_iff value other, sameEntries_iff rest others]

end

instance : DecidableEq Value := fun value other => decidable_of_iff _ (same_iff value other)

end Value

/-- A way to read the text of a document: the entries of the table that it describes, if it is one. -/
abbrev DocumentReader := String → Option (List (String × Value))

end Dispatch.Toml
