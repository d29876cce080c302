import Dispatch.Toml.Value

/-!
# Building tables

The tables of a document are built piece by piece: a header opens a table, an entry with a dotted
key opens the tables on its way. How a table came about decides whether a later piece may extend it.

## Main definitions

* `Origin` — how a table came about
* `Item` — a finished value, a table, or an array of tables that are still being built
* `Item.toValue` — the value when nothing more is to come
* `descend` — changes the table at the end of a path
* `putEntry`, `openTable`, `openElement` — the three kinds of piece
-/

set_option autoImplicit false

namespace Dispatch.Toml

/-- How a table came about. -/
inductive Origin where
  /-- it has a header of its own, is an element of an array of tables, or is the outermost table -/
  | header
  /-- it stands on the way to a table with a header -/
  | implied
  /-- it stands on the way to an entry with a dotted key -/
  | dotted
deriving DecidableEq

/-- What a key has in a table that is still being built. -/
inductive Item where
  | value (value : Value)
  | table (origin : Origin) (entries : List (String × Item))
  /-- an array of tables, each with its entries -/
  | tables (elements : List (List (String × Item)))

/-- The entries of a table that is still being built, in order. -/
abbrev Entries := List (String × Item)

mutual

/-- The value of an item. -/
def Item.toValue : Item → Value
  | .value value => value
  | .table _ entries => .table (entriesToValues entries)
  | .tables elements => .array (elementsToValues elements)

/-- The values of entries. -/
def entriesToValues : List (String × Item) → List (String × Value)
  | [] => []
  | (key, item) :: rest => (key, item.toValue) :: entriesToValues rest

/-- The values of the elements of an array of tables. -/
def elementsToValues : List (List (String × Item)) → List Value
  | [] => []
  | entries :: rest => .table (entriesToValues entries) :: elementsToValues rest

end

/-- Gives a key that is present another item, at its old place. -/
def setItem (key : String) (item : Item) (entries : Entries) : Entries :=
  entries.map fun entry => if entry.1 = key then (key, item) else entry

/-- Changes the table at the end of a path, tables on the way being opened where there is nothing.
`opened` is the origin of such tables. A path through an array of tables goes to its last element. A
path of dotted keys does not go through a table with a header of its own. -/
def descend (opened : Origin) (change : Origin → Entries → Option Entries) :
    List String → Origin → Entries → Option Entries
  | [], origin, entries => change origin entries
  | key :: path, _, entries =>
    match entries.lookup key with
    | none => do
      let inner ← descend opened change path opened []
      return entries ++ [(key, .table opened inner)]
    | some (.value _) => none
    | some (.table origin inner) =>
      if opened = .dotted ∧ origin = .header then none
      else do
        let inner ← descend opened change path origin inner
        return setItem key (.table origin inner) entries
    | some (.tables elements) =>
      match elements.getLast? with
      | none => none
      | some last => do
        let last ← descend opened change path .header last
        return setItem key (.tables (elements.dropLast ++ [last])) entries

/-- Splits a path into the way and the last key. -/
def splitPath? (path : List String) : Option (List String × String) :=
  path.getLast?.map fun key => (path.dropLast, key)

/-- Adds an entry below a table. A dotted key may only extend tables that came about by dotted keys,
and no key is given twice. -/
def putEntry (path : List String) (value : Value) (entries : Entries) : Option Entries := do
  let (way, key) ← splitPath? path
  descend .dotted
    (fun origin inner =>
      if (origin = .dotted ↔ way = []) ∨ (inner.lookup key).isSome then none
      else some (inner ++ [(key, .value value)]))
    way .header entries

/-- Opens the table of a header. A table that stood only on the way to others goes to the end with
all that it has; any other table cannot be opened again. -/
def openTable (path : List String) (entries : Entries) : Option Entries := do
  let (way, key) ← splitPath? path
  descend .implied
    (fun _ inner =>
      match inner.lookup key with
      | none => some (inner ++ [(key, .table .header [])])
      | some (.table .implied old) =>
        some (inner.filter (fun entry => entry.1 ≠ key) ++ [(key, .table .header old)])
      | some _ => none)
    way .header entries

/-- Opens a further element of an array of tables. -/
def openElement (path : List String) (entries : Entries) : Option Entries := do
  let (way, key) ← splitPath? path
  descend .implied
    (fun _ inner =>
      match inner.lookup key with
      | none => some (inner ++ [(key, .tables [[]])])
      | some (.tables elements) => some (setItem key (.tables (elements ++ [[]])) inner)
      | some _ => none)
    way .header entries

/-- Changes the table that was opened last under a path. -/
def changeOpened (path : List String) (change : Entries → Option Entries) (entries : Entries) :
    Option Entries :=
  descend .implied (fun _ inner => change inner) path .header entries

end Dispatch.Toml
