/-!
# Settings of a compilation

What happens when two usages end at the same node of the dispatch trie, and how loudly it is
reported.

## Main definitions

* `Precedence` — which of two terminals stays
* `Settings` — the rule of precedence and the loudness
-/

set_option autoImplicit false

namespace Dispatch

/-- Which of two terminals stays when both are registered at one node. -/
inductive Precedence where
  /-- the later one replaces the earlier one -/
  | lastWins
  /-- the first one stays, later ones are dropped -/
  | keepFirst
deriving DecidableEq, Repr

/-- The name of a rule of precedence. -/
def Precedence.name : Precedence → String
  | .lastWins => "last_wins"
  | .keepFirst => "keep_first"

/-- The rule of precedence with a given name. -/
def Precedence.ofName? : String → Option Precedence
  | "last_wins" => some .lastWins
  | "keep_first" => some .keepFirst
  | _ => none

/-- How a set of commands is compiled. -/
structure Settings where
  /-- which of two terminals at one node stays -/
  precedence : Precedence := .lastWins
  /-- report a replaced or dropped terminal as a warning -/
  warnOnDuplicate : Bool := false
deriving DecidableEq, Repr

theorem Precedence.ofName?_eq_some_iff {name : String} {precedence : Precedence} :
    ofName? name = some precedence ↔ name = precedence.name := by
  constructor
  · intro h
    unfold ofName? at h
    split at h <;> simp_all [Precedence.name] <;> subst h <;> rfl
  · rintro rfl
    cases precedence <;> rfl

end Dispatch
