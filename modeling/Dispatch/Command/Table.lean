import Dispatch.Command.Basic
import Dispatch.Text.Blank

/-!
# Tables of commands

Commands are compiled from tables. The table of a command is a copy of the command and of all commands
below it that is made once, before anything is compiled, and only of a command without offence: no name
in its tree is blank, and no usage is without arguments.

## Main definitions

* `CommandError` — why a command cannot be compiled
* `CommandTable` — what is kept of a command
* `CommandTable.names`, `CommandTable.paths` — its names, the argument paths of its usages
* `CommandTable.positionCount` — the number of argument positions in the whole tree
* `Command.extract` — the table of a command, or the first reason why there is none
-/

set_option autoImplicit false

namespace Dispatch

/-- Why a command cannot be compiled. -/
inductive CommandError where
  /-- a name is empty or blank -/
  | blankName
  /-- a usage of the named command has no arguments -/
  | emptyUsage (index : Nat) (command : String)
deriving DecidableEq, Repr

/-- What is wrong with a command, in words. -/
def CommandError.message : CommandError → String
  | blankName => "command has no name"
  | emptyUsage index command =>
    "syntax #" ++ toString index ++ " of '" ++ command ++ "' has no arguments"

/-- What is kept of a command for compiling it. -/
structure CommandTable (γ ε : Type) where
  name : String
  aliases : List String
  /-- the guard for the whole command -/
  guard : Option (Guard γ)
  /-- the executor for the bare name -/
  executor : Option ε
  usages : List (Usage γ ε)
  subcommands : List (CommandTable γ ε)

namespace CommandTable

variable {γ ε : Type}

/-- The name, and then the aliases in order. -/
def names (table : CommandTable γ ε) : List String := table.name :: table.aliases

/-- The argument paths of the usages, in order. -/
def paths (table : CommandTable γ ε) : List (List Argument) := table.usages.map (·.arguments)

mutual

/-- The number of argument positions: those of all usages, one for each subcommand, and those of the
subcommands. -/
def positionCount : CommandTable γ ε → Nat
  | ⟨_, _, _, _, usages, subcommands⟩ =>
    usages.foldr (fun usage count => usage.arguments.length + count) 0 + positionCounts subcommands

/-- The argument positions of subcommands, their own names included. -/
def positionCounts : List (CommandTable γ ε) → Nat
  | [] => 0
  | table :: rest => (table.positionCount + 1) + positionCounts rest

end

end CommandTable

namespace Command

variable {γ ε : Type}

/-- The first usage without arguments. -/
def usageOffence? (name : String) (usages : List (Usage γ ε)) : Option CommandError :=
  (usages.findIdx? (·.arguments.isEmpty)).map fun index => .emptyUsage index name

mutual

/-- The table of a command. Its own name is checked first, then its usages by index, then its
subcommands, each of them completely before the next. -/
def extract : Command γ ε → Except CommandError (CommandTable γ ε)
  | ⟨name, aliases, guard, executor, usages, subcommands⟩ => do
    if Text.isBlankText name then throw .blankName
    if let some offence := usageOffence? name usages then throw offence
    return { name, aliases, guard, executor, usages, subcommands := ← extractEach subcommands }

/-- The tables of commands, in order. -/
def extractEach : List (Command γ ε) → Except CommandError (List (CommandTable γ ε))
  | [] => .ok []
  | command :: rest => return (← command.extract) :: (← extractEach rest)

end

end Command

end Dispatch
