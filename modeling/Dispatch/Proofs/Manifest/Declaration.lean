import Dispatch.Manifest.Basic
import Dispatch.Proofs.Compile.Unit
import Dispatch.Proofs.Token

/-!
# From declarations to commands

When declared commands are accepted, and what they become: every name has been found not to be blank,
every pattern has been read and holds arguments, and apart from that each part of a command is that of
its declaration. An accepted command is always usable.

## Main results

* `DeclaredUsage.toUsage_eq_ok_iff`, `DeclaredCommand.toCommand_eq_ok_iff`,
  `DeclaredCommand.toCommands_eq_ok_iff` — what is accepted, and what it becomes
* `DeclaredCommand.offence?_of_toCommand` — an accepted command is usable
* `Manifest.ofText_eq_ok_iff` — which manifest is in a text
-/

set_option autoImplicit false

namespace Dispatch

/-- The guard that asks for a permission. -/
def Permission.guard (name : String) : Guard Permission := .single ⟨name⟩

namespace DeclaredUsage

/-- The label of the executor of a usage, if it can be executed. -/
def label? (command : String) (declared : DeclaredUsage) : Option String :=
  if declared.executes then some (command ++ " " ++ declared.pattern) else none

/-- A declared usage is accepted if its pattern can be read and holds arguments. -/
theorem toUsage_eq_ok_iff {command : String} {declared : DeclaredUsage}
    {usage : Usage Permission Label} :
    declared.toUsage command = .ok usage ↔
      Argument.parseAll declared.pattern = .ok usage.arguments ∧ usage.arguments ≠ [] ∧
        usage.executor = (declared.label? command).map Label.mk ∧
        usage.guard = declared.permission.map Permission.guard := by
  obtain ⟨arguments, executor, guard⟩ := usage
  have label : (if declared.executes then some (Label.mk (command ++ " " ++ declared.pattern))
      else none) = (declared.label? command).map Label.mk := by
    unfold label?
    cases declared.executes <;> rfl
  rw [toUsage, ← label]
  cases Argument.parseAll declared.pattern with
  | error cause => simp
  | ok read =>
    cases read with
    | nil =>
      simp only [reduceCtorEq, Except.ok.injEq, false_iff, not_and]
      intro empty filled
      exact absurd empty.symm filled
    | cons first rest =>
      simp only [Except.ok.injEq, Usage.mk.injEq]
      constructor
      · rintro ⟨rfl, rfl, rfl⟩
        exact ⟨rfl, by simp, rfl, rfl⟩
      · rintro ⟨rfl, -, rfl, rfl⟩
        exact ⟨rfl, rfl, rfl⟩

end DeclaredUsage

namespace DeclaredCommand

/-- The name, and then the aliases in order. -/
def names (declared : DeclaredCommand) : List String := declared.name :: declared.aliases

theorem toCommands_eq_ok_iff {declared : List DeclaredCommand}
    {commands : List (Command Permission Label)} :
    toCommands declared = .ok commands ↔
      List.Forall₂ (fun declared command => declared.toCommand = .ok command) declared commands := by
  rw [← mapM_eq_ok_iff]
  have same : ∀ declared, toCommands declared = declared.mapM toCommand := by
    intro declared
    induction declared with
    | nil => rfl
    | cons first rest ih => rw [toCommands, List.mapM_cons, ih]
  rw [same]

/-- A declared command is accepted if its name is not blank and its usages and subcommands are
accepted. -/
theorem toCommand_eq_ok_iff {name : String} {aliases : List String} {permission : Option String}
    {runs : Bool} {usages : List DeclaredUsage} {subcommands : List DeclaredCommand}
    {command : Command Permission Label} :
    toCommand ⟨name, aliases, permission, runs, usages, subcommands⟩ = .ok command ↔
      Text.isBlankText name = false ∧ command.name = name ∧ command.aliases = aliases ∧
        command.guard = permission.map Permission.guard ∧
        command.executor = (if runs then some ⟨name⟩ else none) ∧
        List.Forall₂ (fun declared usage => DeclaredUsage.toUsage name declared = .ok usage) usages
          command.usages ∧
        List.Forall₂ (fun declared child => declared.toCommand = .ok child) subcommands
          command.subcommands := by
  rw [toCommand, ← mapM_eq_ok_iff, ← toCommands_eq_ok_iff]
  obtain ⟨name', aliases', guard, executor, usages', subcommands'⟩ := command
  cases Text.isBlankText name with
  | true => simp [bind, Except.bind, throw, throwThe, MonadExceptOf.throw]
  | false =>
    cases usages.mapM (DeclaredUsage.toUsage name) with
    | error cause => simp [bind, Except.bind]
    | ok read =>
      cases toCommands subcommands with
      | error cause => simp [bind, Except.bind]
      | ok children =>
        simp only [bind, Except.bind, pure, Except.pure, Bool.false_eq_true, if_false,
          Except.ok.injEq, Command.mk.injEq, true_and]
        constructor
        · rintro ⟨rfl, rfl, rfl, rfl, rfl, rfl⟩
          exact ⟨rfl, rfl, rfl, rfl, rfl, rfl⟩
        · rintro ⟨rfl, rfl, rfl, rfl, rfl, rfl⟩
          exact ⟨rfl, rfl, rfl, rfl, rfl, rfl⟩

mutual

/-- An accepted command is usable. -/
theorem offence?_of_toCommand : ∀ (declared : DeclaredCommand) {command : Command Permission Label},
    declared.toCommand = .ok command → command.offence? = none
  | ⟨name, aliases, permission, runs, usages, subcommands⟩, command, accepted => by
    obtain ⟨proper, named, -, -, -, read, below⟩ := toCommand_eq_ok_iff.mp accepted
    refine Command.offence?_eq_none_iff.mpr ⟨named ▸ proper, ?_, ?_⟩
    · have filled := read.flip.imp fun usage declared accepted =>
        And.intro (DeclaredUsage.toUsage_eq_ok_iff.mp accepted).2.1 accepted
      exact ((List.forall₂_and_left _ _).mp filled).1
    · exact offence?_of_toCommands subcommands below

theorem offence?_of_toCommands : ∀ (declared : List DeclaredCommand)
    {commands : List (Command Permission Label)},
    List.Forall₂ (fun declared command => declared.toCommand = .ok command) declared commands →
      ∀ command ∈ commands, command.offence? = none
  | [], commands, accepted => by
    rw [List.forall₂_nil_left_iff.mp accepted]
    simp
  | declared :: rest, commands, accepted => by
    obtain ⟨command, others, first, below, rfl⟩ := List.forall₂_cons_left_iff.mp accepted
    rw [List.forall_mem_cons]
    exact ⟨offence?_of_toCommand declared first, offence?_of_toCommands rest below⟩

end

end DeclaredCommand

/-- The manifest in a text is that of its declarations, however documents are read. -/
theorem Manifest.ofText_eq_ok_iff {text : String} {read : Toml.DocumentReader} {manifest : Manifest} :
    Manifest.ofText text read = .ok manifest ↔
      ∃ declared, Declared.ofText text read = .ok declared ∧ manifest.settings = declared.settings ∧
        List.Forall₂ (fun declared command => DeclaredCommand.toCommand declared = .ok command)
          declared.commands manifest.commands := by
  obtain ⟨settings, commands⟩ := manifest
  simp only [← DeclaredCommand.toCommands_eq_ok_iff]
  rw [Manifest.ofText]
  cases Declared.ofText text read with
  | error error => simp
  | ok declared =>
    simp only [Except.ok.injEq, exists_eq_left']
    rw [Manifest.ofDeclared]
    cases DeclaredCommand.toCommands declared.commands with
    | error error => simp [bind, Except.bind]
    | ok accepted => simp [bind, Except.bind, pure, Except.pure, eq_comm]

end Dispatch
