import Dispatch.Proofs.Compile.Run
import Dispatch.Proofs.Offer

/-!
# What is compiled in one go

A compilation takes one command, whose own node is the root, or several commands that are placed
below the root. Either way its result is determined by the offers of the commands and the paths that
they name: it succeeds exactly if every command is usable and the nodes fit into an arena, and then
its nodes are the beginnings of the named paths and the terminal at each node is that of its owner.

## Main definitions

* `CompileUnit` — one command, or several below a common root
* `CompileUnit.compile` — their compilation
* `CompileUnit.offers`, `CompileUnit.visited` — what they offer, which paths they name
* `CompileUnit.nodeCount` — how many nodes that takes
* `CompileUnit.summary` — the event that reports the end of a compilation

## Main results

* `CompileUnit.compile_eq_of_usable`, `CompileUnit.exists_compile_eq_of_unusable` — the compilation of
  usable commands, and of others
* `CompileUnit.exists_compile_eq_ok_iff` — when a compilation succeeds
* `CompileUnit.numbering_of_compile` — which nodes the compiled trie has
* `CompileUnit.terminalAt?_of_compile` — which terminals it has
-/

set_option autoImplicit false

namespace Dispatch

open Argument

variable {γ ε : Type}

/-- What is compiled in one go. -/
inductive CompileUnit (γ ε : Type) where
  /-- one command, whose own node is the root -/
  | alone (command : Command γ ε)
  /-- several commands below an unguarded root, each one at every one of its names -/
  | together (commands : List (Command γ ε))

/-! ### The compilation of a unit -/

namespace CompileUnit

variable {unit : CompileUnit γ ε} {settings : Settings} {trie : Trie γ ε}

/-- The commands of a unit. -/
def commands : CompileUnit γ ε → List (Command γ ε)
  | alone command => [command]
  | together commands => commands

/-- The compilation of a unit. -/
def compile (settings : Settings) : CompileUnit γ ε → Compilation γ ε
  | alone command => Trie.ofCommand settings command
  | together commands => Trie.ofCommands settings commands

/-- The registrations that the compilation processes. -/
def registrations : CompileUnit γ ε → List (Registration γ ε)
  | alone command => command.registrationsAt none []
  | together commands => Command.branches none [] commands

/-- What the commands of a unit offer, in order. -/
def offers : CompileUnit γ ε → List (Offer γ ε)
  | alone command => command.offersAt [] []
  | together commands => Command.offersBelow [] [] commands

/-- The paths that the commands of a unit name, in order. -/
def visited : CompileUnit γ ε → List (List Argument)
  | alone command => command.visitedAt []
  | together commands => Command.visitedBelow [] commands

/-- Every command of the unit is usable. -/
def Usable (unit : CompileUnit γ ε) : Prop := ∀ command ∈ unit.commands, command.offence? = none

/-- The number of nodes that a unit takes: the root, and one for each beginning of a path. -/
def nodeCount (unit : CompileUnit γ ε) : Nat := 1 + (distinctBeginnings unit.visited).card

/-- The paths of the nodes of a unit, in the order in which they come up. -/
def paths (unit : CompileUnit γ ε) : List (List Argument) :=
  enterAll [[]] (unit.visited.flatMap beginnings)

instance (unit : CompileUnit γ ε) : Decidable unit.Usable :=
  inferInstanceAs (Decidable (∀ command ∈ unit.commands, command.offence? = none))

theorem length_paths (unit : CompileUnit γ ε) : unit.paths.length = unit.nodeCount :=
  length_enterAll_beginnings unit.visited

theorem registrations_eq (unit : CompileUnit γ ε) :
    unit.registrations = unit.offers.map Offer.registration := by
  cases unit with
  | alone command => exact command.registrationsAt_eq [] []
  | together commands => exact Command.branches_eq [] [] commands

/-- The beginnings of the paths at which something is offered are those of the named paths. -/
theorem beginnings_offers (unit : CompileUnit γ ε) :
    (unit.offers.map Offer.path).flatMap beginnings = unit.visited.flatMap beginnings := by
  cases unit with
  | alone command => rw [offers, Command.path_offersAt]; rfl
  | together commands => rw [offers, Command.path_offersBelow]; rfl

theorem paths_eq (unit : CompileUnit γ ε) :
    unit.paths = enterAll [[]] ((unit.offers.map Offer.path).flatMap beginnings) := by
  rw [paths, beginnings_offers]

theorem beginnings_registrations (unit : CompileUnit γ ε) :
    (unit.registrations.flatMap fun r => beginnings r.path) = unit.visited.flatMap beginnings := by
  rw [registrations_eq, List.flatMap_map, ← beginnings_offers, List.flatMap_map]
  rfl

/-- The event that reports the end of a compilation, given how many nodes and how many terminals the
trie has. -/
def summary (nodes terminals : Nat) : CompileUnit γ ε → Event
  | alone command => .built command.name nodes terminals
  | together commands => .merged commands.length nodes terminals

/-- Commands of which one is refused are not compiled, and nothing is reported. -/
theorem compile_eq_of_offence {cause : CommandError}
    (first : Command.firstOffence? unit.commands = some cause) (settings : Settings) :
    unit.compile settings = ⟨.error (.invalid cause), #[]⟩ := by
  cases unit with
  | alone command =>
    have refused : command.offence? = some cause := by
      simpa [commands, Command.firstOffence?] using first
    rw [compile, Trie.ofCommand, Command.extract_eq_error_iff.mpr refused]
  | together commands =>
    have refused : Command.extractEach commands = .error cause :=
      Command.extractEach_eq_error_iff.mpr first
    rw [compile, Trie.ofCommands, refused]

/-- A unit of usable commands is compiled by processing its registrations and reporting the end. -/
theorem compile_eq_of_usable (usable : unit.Usable) (settings : Settings) :
    unit.compile settings = Trie.compile settings unit.registrations fun progress =>
      unit.summary progress.trie.size progress.terminals := by
  cases unit with
  | alone command =>
    have extracted := Command.extract_eq_ok_iff.mpr ⟨usable command List.mem_cons_self, rfl⟩
    rw [compile, Trie.ofCommand, extracted]
    simp only [Command.name_table]
    rfl
  | together commands =>
    have sound : Command.firstOffence? commands = none := Command.firstOffence?_eq_none_iff.mpr usable
    rw [compile, Trie.ofCommands, Command.extractEach_eq, sound]
    simp only [Command.length_tables]
    rfl

/-- Commands that are not all usable are refused before anything is reported, for the same cause under
all settings. -/
theorem exists_compile_eq_of_unusable (unusable : ¬ unit.Usable) :
    ∃ cause, ∀ settings, unit.compile settings = ⟨.error (.invalid cause), #[]⟩ := by
  obtain ⟨cause, first⟩ : ∃ cause, Command.firstOffence? unit.commands = some cause := by
    rw [← Option.isSome_iff_exists, Option.isSome_iff_ne_none]
    exact mt Command.firstOffence?_eq_none_iff.mp unusable
  exact ⟨cause, compile_eq_of_offence first⟩

/-- The result of a unit of usable commands is that of processing its registrations. -/
theorem result_of_usable (usable : unit.Usable) :
    (unit.compile settings).result =
      match Progress.registerAll settings unit.registrations .start with
      | .ok _ progress => .ok progress.trie
      | .error error _ => .error error := by
  rw [compile_eq_of_usable usable, Trie.compile]
  cases Progress.registerAll settings unit.registrations .start <;> rfl

theorem usable_of_compile (compiled : (unit.compile settings).result = .ok trie) : unit.Usable := by
  by_contra unusable
  obtain ⟨cause, refused⟩ := exists_compile_eq_of_unusable unusable
  simp [refused] at compiled

/-- What processing the registrations of a unit reaches. -/
theorem registerAll_reaches (unit : CompileUnit γ ε) (settings : Settings) :
    Progress.Reaches unit.paths
      (fun _ after => ∀ path, after.trie.terminalAt? path =
        Progress.occupant settings.precedence path unit.registrations none)
      (Progress.registerAll settings unit.registrations .start) := by
  have numbered : (Progress.start : Progress γ ε).trie.Numbering [[]] := Trie.Numbering.empty
  have reached := Progress.registerAll_reaches numbered settings unit.registrations
  rw [beginnings_registrations] at reached
  have bare : ∀ path, (Progress.start : Progress γ ε).trie.terminalAt? path = none := fun _ =>
    Trie.terminalAt?_empty
  simp only [bare] at reached
  exact reached

/-- The trie of a successful compilation is that of the progress at its end. -/
theorem exists_run_of_compile (compiled : (unit.compile settings).result = .ok trie) :
    ∃ progress, Progress.registerAll settings unit.registrations .start = .ok () progress ∧
      progress.trie = trie := by
  rw [result_of_usable (usable_of_compile compiled)] at compiled
  cases ended : Progress.registerAll settings unit.registrations .start with
  | ok done progress =>
    rw [ended] at compiled
    exact ⟨progress, rfl, Except.ok.inj compiled⟩
  | error error progress => simp [ended] at compiled

/-- What a compilation was evaluated to shows in the trie that it ends with. -/
theorem eq_of_map_result {α : Type} {value : α} (view : Trie γ ε → α)
    (compiled : (unit.compile settings).result = .ok trie)
    (evaluated : (unit.compile settings).result.map view = .ok value) : view trie = value := by
  rw [compiled] at evaluated
  exact Except.ok.inj evaluated

/-- A compilation succeeds exactly if all commands are usable and an arena has enough slots. -/
theorem exists_compile_eq_ok_iff (settings : Settings) (unit : CompileUnit γ ε) :
    (∃ trie, (unit.compile settings).result = .ok trie) ↔
      unit.Usable ∧ unit.nodeCount ≤ NodeId.capacity := by
  have reached := unit.registerAll_reaches settings
  constructor
  · rintro ⟨trie, compiled⟩
    obtain ⟨progress, ended, -⟩ := exists_run_of_compile compiled
    rw [ended] at reached
    refine ⟨usable_of_compile compiled, ?_⟩
    rw [← length_paths, reached.1.length_eq]
    exact reached.1.fits
  · rintro ⟨usable, fits⟩
    rw [result_of_usable usable]
    cases ended : Progress.registerAll settings unit.registrations .start with
    | ok done progress => exact ⟨progress.trie, rfl⟩
    | error error progress =>
      -- Usable commands fail only when the arena is full, and it is not.
      rw [ended] at reached
      have full : NodeId.capacity < unit.paths.length := reached
      rw [length_paths] at full
      omega

/-- The nodes of the compiled trie are the beginnings of the paths that the commands name. -/
theorem numbering_of_compile (compiled : (unit.compile settings).result = .ok trie) :
    trie.Numbering unit.paths := by
  have reached := unit.registerAll_reaches settings
  obtain ⟨progress, ended, rfl⟩ := exists_run_of_compile compiled
  rw [ended] at reached
  exact reached.1

/-- The terminals of the compiled trie are those that the registrations settle on. -/
theorem terminalAt?_of_compile (compiled : (unit.compile settings).result = .ok trie)
    (path : List Argument) :
    trie.terminalAt? path =
      Progress.occupant settings.precedence path unit.registrations none := by
  have reached := unit.registerAll_reaches settings
  obtain ⟨progress, ended, rfl⟩ := exists_run_of_compile compiled
  rw [ended] at reached
  exact reached.2 path

/-- An example: a guarded command whose usages and subcommands meet at two nodes, one of the
subcommands having an alias. -/
def sample : CompileUnit String String :=
  .alone
    { name := "admin"
      aliases := []
      guard := some (.single "staff")
      executor := none
      usages :=
        [⟨[.literal "reload"], some "reload all", none⟩, ⟨[.literal "stop"], some "stop later", none⟩]
      subcommands :=
        [{ name := "reload"
           aliases := ["r"]
           guard := some (.single "owner")
           executor := none
           usages := [⟨[.typed "what" .word none], some "reload one", none⟩]
           subcommands := [] },
          { name := "stop"
            aliases := []
            guard := none
            executor := some "stop now"
            usages := []
            subcommands := [] }] }

end CompileUnit

end Dispatch
