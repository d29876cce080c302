import Dispatch.Command.Registration
import Dispatch.Event

/-!
# Compiling commands

A compilation processes registrations one after the other. The path of a registration is walked from
the root, each step taking the child for the next argument and appending one where there is none;
paths with a common beginning share its nodes. What the registration puts at the end of its path
then goes to the node that was reached. No guard is consulted and no executor is run.

## Main definitions

* `Progress` — the trie so far, the number of filled nodes, and the events
* `Progress.ensureChild` — finds or appends the node for an argument
* `Progress.ensurePath` — finds or appends the nodes of a path
* `Progress.putTerminal`, `Progress.putPlaceholder` — the two ways of placing a terminal
* `Progress.register` — processing one registration
* `Trie.ofCommand` — compiles one command, whose own node is the root
* `Trie.ofCommands` — compiles several commands below an unguarded root
-/

set_option autoImplicit false

namespace Dispatch

/-- Why a compilation fails. -/
inductive CompileError where
  /-- there is no table of a command -/
  | invalid (cause : CommandError)
  /-- the arena has no slot with this index -/
  | capacityExceeded (index : Nat)
deriving DecidableEq, Repr

/-- The state of a compilation. -/
structure Progress (γ ε : Type) where
  trie : Trie γ ε
  /-- how often a terminal went to an empty node -/
  terminals : Nat
  log : Array Event

/-- A step of a compilation. What was done before a failure is kept. -/
abbrev Compile (γ ε : Type) := EStateM CompileError (Progress γ ε)

namespace Progress

variable {γ ε : Type}

/-- The state at the beginning: only the root. -/
def start : Progress γ ε := ⟨.empty, 0, #[]⟩

/-- The child of `parent` for an argument. It is appended where there is none, unless the arena is
full. -/
def ensureChild (parent : NodeId) (argument : Argument) : Compile γ ε NodeId := fun progress =>
  match progress.trie.findChild? parent argument with
  | some id => .ok id progress
  | none =>
    match free : NodeId.ofIndex? progress.trie.size with
    | some id =>
      .ok id
        { progress with
          trie := progress.trie.insertChild parent argument id (NodeId.index_of_ofIndex? free)
          log := progress.log.push (.createdNode parent id argument) }
    | none => .error (.capacityExceeded progress.trie.size) progress

/-- The node at the end of a path, all nodes on the way being appended where they are missing. -/
def ensurePath (start : NodeId) (path : List Argument) : Compile γ ε NodeId :=
  path.foldlM ensureChild start

/-- Places a terminal at an empty node; at any other node nothing happens. -/
def putPlaceholder (id : NodeId) (terminal : Terminal γ ε) (progress : Progress γ ε) :
    Progress γ ε :=
  match progress.trie.terminal? id with
  | none =>
    { progress with
      trie := progress.trie.setTerminal id terminal
      terminals := progress.terminals + 1 }
  | some _ => progress

/-- Places a terminal at a node. If one stands there already, the rule of precedence decides which of
them stays, and this is reported in the name of the command. -/
def putTerminal (settings : Settings) (command : String) (id : NodeId) (terminal : Terminal γ ε)
    (progress : Progress γ ε) : Progress γ ε :=
  match progress.trie.terminal? id with
  | none =>
    { progress with
      trie := progress.trie.setTerminal id terminal
      terminals := progress.terminals + 1 }
  | some _ =>
    { progress with
      trie := match settings.precedence with
        | .lastWins => progress.trie.setTerminal id terminal
        | .keepFirst => progress.trie
      log := progress.log.push
        (.duplicateTerminal settings.warnOnDuplicate command id settings.precedence) }

/-- Places what a registration puts at the node that it reached. -/
def place (settings : Settings) (command : String) (id : NodeId) :
    Option (Entry γ ε) → Progress γ ε → Progress γ ε
  | none, progress => progress
  | some (.terminal terminal), progress => progress.putTerminal settings command id terminal
  | some (.placeholder terminal), progress => progress.putPlaceholder id terminal

/-- Processes one registration. -/
def register (settings : Settings) (registration : Registration γ ε) : Compile γ ε Unit := do
  let id ← ensurePath NodeId.root registration.path
  modify (place settings registration.command id registration.entry)

/-- Processes registrations in order. -/
def registerAll (settings : Settings) (registrations : List (Registration γ ε)) :
    Compile γ ε Unit :=
  registrations.forM (register settings)

end Progress

/-- The result of a compilation and what it reported. -/
structure Compilation (γ ε : Type) where
  result : Except CompileError (Trie γ ε)
  log : Array Event

namespace Trie

variable {γ ε : Type}

/-- Processes registrations from the start and reports the end of it. -/
def compile (settings : Settings) (registrations : List (Registration γ ε))
    (summary : Progress γ ε → Event) : Compilation γ ε :=
  match Progress.registerAll settings registrations .start with
  | .ok _ progress => ⟨.ok progress.trie, progress.log.push (summary progress)⟩
  | .error error progress => ⟨.error error, progress.log⟩

/-- Compiles one command, whose own node is the root. -/
def ofCommand (settings : Settings) (command : Command γ ε) : Compilation γ ε :=
  match command.extract with
  | .error cause => ⟨.error (.invalid cause), #[]⟩
  | .ok table =>
    compile settings table.registrations fun progress =>
      .built table.name progress.trie.size progress.terminals

/-- Compiles several commands below an unguarded root, with a node for each of their names. -/
def ofCommands (settings : Settings) (commands : List (Command γ ε)) : Compilation γ ε :=
  match Command.extractEach commands with
  | .error cause => ⟨.error (.invalid cause), #[]⟩
  | .ok tables =>
    compile settings (CommandTable.mergedRegistrations tables) fun progress =>
      .merged tables.length progress.trie.size progress.terminals

end Trie

end Dispatch
