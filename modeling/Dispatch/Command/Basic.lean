import Dispatch.Argument.Basic
import Dispatch.Terminal

/-!
# Commands

A command has a name and aliases, an optional guard for all of it, an optional executor for its bare
name, usages (argument paths with an executor and a guard of their own) and subcommands. The order
of usages and subcommands is the order of registration and decides the order of nodes in the
compiled trie.

## Main definitions

* `Usage` — one alternative of a command
* `Command` — a command with its usages and subcommands
* `Command.names` — its name and then its aliases
-/

set_option autoImplicit false

namespace Dispatch

/-- One alternative of a command: its arguments, and what stands at their end. -/
structure Usage (γ ε : Type) where
  arguments : List Argument
  executor : Option ε
  guard : Option (Guard γ)
deriving DecidableEq

/-- A named command and everything registered on it. -/
structure Command (γ ε : Type) where
  name : String
  aliases : List String
  /-- the guard for the whole command -/
  guard : Option (Guard γ)
  /-- the executor for the bare name -/
  executor : Option ε
  usages : List (Usage γ ε)
  subcommands : List (Command γ ε)

namespace Command

variable {γ ε : Type}

/-- A command of which only the name is known. -/
def ofName (name : String) : Command γ ε := ⟨name, [], none, none, [], []⟩

/-- The name, and then the aliases in order. -/
def names (command : Command γ ε) : List String := command.name :: command.aliases

end Command

end Dispatch
