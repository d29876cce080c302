/-!
# Arguments

One position of a command line is either a literal keyword or a named placeholder that takes a value
of some kind. Two arguments denote the same position when they are the same keyword, or placeholders
of the same name and kind; the description of a placeholder is a hint for display and plays no part.

## Main definitions

* `Kind` — the kind of value a placeholder takes
* `Argument` — a literal or a placeholder
* `Argument.position` — what an argument denotes, its description aside
* `Argument.SamePosition` — both arguments denote the same position
* `Argument.display` — how an argument is written

## Main results

* `Argument.SamePosition` is an equivalence relation that descriptions do not influence
-/

set_option autoImplicit false

namespace Dispatch

/-- The kind of value that a placeholder takes. -/
inductive Kind where
  /-- a single word -/
  | word
  /-- a quoted text or a single word -/
  | string
  /-- everything up to the end of the input -/
  | greedy
  | integer
  | double
  | boolean
  | entity
  | player
deriving DecidableEq, Hashable, Repr

/-- The canonical name of a kind. -/
def Kind.name : Kind → String
  | .word => "word"
  | .string => "string"
  | .greedy => "greedy"
  | .integer => "integer"
  | .double => "double"
  | .boolean => "boolean"
  | .entity => "entity"
  | .player => "player"

/-- One position of a command line. -/
inductive Argument where
  /-- a keyword -/
  | literal (text : String)
  /-- a placeholder, with a hint for display -/
  | typed (name : String) (kind : Kind) (description : Option String)
deriving DecidableEq, Repr

namespace Argument

/-- What two arguments share when they denote the same position. -/
inductive Position where
  | keyword (text : String)
  | placeholder (name : String) (kind : Kind)
deriving DecidableEq, Hashable, Repr

/-- The argument without its description. -/
def position : Argument → Position
  | literal text => .keyword text
  | typed name kind _ => .placeholder name kind

/-- Both arguments denote the same position. -/
def SamePosition (a b : Argument) : Prop := a.position = b.position

instance (a b : Argument) : Decidable (a.SamePosition b) :=
  inferInstanceAs (Decidable (a.position = b.position))

/-- The hash agrees with `SamePosition`, so descriptions do not enter it. -/
instance : Hashable Argument := ⟨fun a => hash a.position⟩

/-- Whether the argument is a keyword. -/
def isLiteral : Argument → Bool
  | literal _ => true
  | typed .. => false

/-- The text of a keyword or the name of a placeholder. -/
def name : Argument → String
  | literal text => text
  | typed name _ _ => name

/-- The hint for display, which only a placeholder has. -/
def description? : Argument → Option String
  | literal _ => none
  | typed _ _ description => description

/-- Gives a placeholder a hint for display; a keyword stays as it is. -/
def describe (text : String) : Argument → Argument
  | literal keyword => literal keyword
  | typed name kind _ => typed name kind (some text)

/-- How the argument is written: a keyword bare, a placeholder in angle brackets. -/
def display : Argument → String
  | literal text => text
  | typed name kind _ => "<" ++ name ++ ":" ++ kind.name ++ ">"

variable {a b c : Argument}

theorem SamePosition.refl (a : Argument) : a.SamePosition a := rfl

theorem SamePosition.symm (h : a.SamePosition b) : b.SamePosition a := Eq.symm h

theorem SamePosition.trans (h : a.SamePosition b) (h' : b.SamePosition c) : a.SamePosition c :=
  Eq.trans h h'

@[simp] theorem position_describe (text : String) (a : Argument) :
    (a.describe text).position = a.position := by
  cases a <;> rfl

theorem SamePosition.display_eq (h : a.SamePosition b) : a.display = b.display := by
  cases a <;> cases b <;> simp_all [SamePosition, position, display]

end Argument

end Dispatch
