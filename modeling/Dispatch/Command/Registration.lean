import Dispatch.Command.Table

/-!
# Registrations

The table of a command says, in a fixed order, which argument paths exist and what stands at their
ends. Each such statement is a registration, and a compilation processes the registrations one by one.

A command registers itself first, then its usages in order, then its subcommands in order, each of
them once for every name. A guard that encloses a registration is joined in front of its own.

## Main definitions

* `Entry` — what a registration puts at the end of its path
* `Registration` — a path, the registering command and the entry
* `CommandTable.registrations` — those of a command whose node is the root
* `CommandTable.mergedRegistrations` — those of commands below an unguarded root
-/

set_option autoImplicit false

namespace Dispatch

/-- What a registration puts at the end of its path. -/
inductive Entry (γ ε : Type) where
  /-- a terminal, which competes with others by the rule of precedence -/
  | terminal (terminal : Terminal γ ε)
  /-- the guard of a command without an executor, which only fills an empty node -/
  | placeholder (terminal : Terminal γ ε)
deriving DecidableEq

/-- A path that exists in the compiled trie, and what stands at its end, if anything. -/
structure Registration (γ ε : Type) where
  /-- the path from the root -/
  path : List Argument
  /-- the name of the command that registers it -/
  command : String
  entry : Option (Entry γ ε)
deriving DecidableEq

namespace CommandTable

variable {γ ε : Type}

/-- What a command puts at its own node. -/
def ownEntry (guard : Option (Guard γ)) (executor : Option ε) : Option (Entry γ ε) :=
  (Terminal.of? guard executor).map
    (if executor.isSome then Entry.terminal else Entry.placeholder)

/-- The registration of a usage of the command at `base`, given the guard of that command. -/
def usageRegistration (name : String) (guard : Option (Guard γ)) (base : List Argument)
    (usage : Usage γ ε) : Registration γ ε :=
  { path := base ++ usage.arguments
    command := name
    entry := (Terminal.of? (Guard.join guard usage.guard) usage.executor).map Entry.terminal }

mutual

/-- The registrations of a command at `base`, given the guard that encloses it. -/
def registrationsAt (inherited : Option (Guard γ)) (base : List Argument) :
    CommandTable γ ε → List (Registration γ ε)
  | ⟨name, _, own, executor, usages, subcommands⟩ =>
    let guard := Guard.join inherited own
    ⟨base, name, ownEntry guard executor⟩ ::
      (usages.map (usageRegistration name guard base) ++ branches guard base subcommands)

/-- The registrations of commands below `base`, each one once for every name. -/
def branches (guard : Option (Guard γ)) (base : List Argument) :
    List (CommandTable γ ε) → List (Registration γ ε)
  | [] => []
  | table :: rest =>
    table.names.flatMap (fun name => table.registrationsAt guard (base ++ [.literal name])) ++
      branches guard base rest

end

/-- The registrations of a command whose own node is the root. -/
def registrations (table : CommandTable γ ε) : List (Registration γ ε) :=
  table.registrationsAt none []

/-- The registrations of commands below an unguarded root. -/
def mergedRegistrations (tables : List (CommandTable γ ε)) : List (Registration γ ε) :=
  branches none [] tables

end CommandTable

end Dispatch
