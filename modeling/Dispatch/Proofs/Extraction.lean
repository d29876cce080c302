import Dispatch.Command.Registration
import Mathlib.Data.List.Forall2

/-!
# What is extracted from a command

Extraction checks a command while it copies it. The two are told apart here: a command has a table exactly
if there is no offence in its tree, and then the table is the copy that could be made of any command. The
copy mirrors the command at every depth, and it is the only table that does.

What a command registers is what its copy registers. So whatever is compiled can be said in terms of
commands, and tables do not come up again.

## Main definitions

* `Command.offence?` — the first reason for which a command is not usable
* `Command.table` — the copy of a command
* `CommandTable.Mirrors` — a table and a command have the same parts
* `Command.registrationsAt`, `Command.branches` — what a command registers, what commands below a node do

## Main results

* `Command.extract_eq` — the table of a command is its copy, unless there is an offence
* `CommandTable.mirrors_iff` — the copy is the one table that mirrors a command
-/

set_option autoImplicit false

namespace Dispatch

variable {γ ε : Type}

namespace Command

mutual

/-- The first reason for which a command is not usable: its own name comes first, then its usages by
index, then its subcommands, each of them completely before the next. -/
def offence? : Command γ ε → Option CommandError
  | ⟨name, _, _, _, usages, subcommands⟩ =>
    if Text.isBlankText name then some .blankName
    else (usageOffence? name usages).or (firstOffence? subcommands)

/-- The first offence in a list of commands. -/
def firstOffence? : List (Command γ ε) → Option CommandError
  | [] => none
  | command :: rest => command.offence?.or (firstOffence? rest)

end

mutual

/-- The copy of a command, whether it is usable or not. -/
def table : Command γ ε → CommandTable γ ε
  | ⟨name, aliases, guard, executor, usages, subcommands⟩ =>
    ⟨name, aliases, guard, executor, usages, tables subcommands⟩

/-- The copies of commands, in order. -/
def tables : List (Command γ ε) → List (CommandTable γ ε)
  | [] => []
  | command :: rest => command.table :: tables rest

end

variable {command : Command γ ε} {commands : List (Command γ ε)}

theorem name_table (command : Command γ ε) : command.table.name = command.name := by
  cases command
  rw [table]

theorem names_table (command : Command γ ε) : command.table.names = command.names := by
  cases command
  rw [table]
  rfl

theorem length_tables (commands : List (Command γ ε)) : (tables commands).length = commands.length := by
  induction commands with
  | nil => rfl
  | cons command rest ih => rw [tables, List.length_cons, List.length_cons, ih]

/-! ### Usable commands -/

theorem firstOffence?_eq_none_iff :
    firstOffence? commands = none ↔ ∀ command ∈ commands, command.offence? = none := by
  induction commands with
  | nil => simp [firstOffence?]
  | cons command rest ih => simp [firstOffence?, ih]

/-- A command is usable if its name is not blank, its usages have arguments and its subcommands are
usable. -/
theorem offence?_eq_none_iff : command.offence? = none ↔
    Text.isBlankText command.name = false ∧ (∀ usage ∈ command.usages, usage.arguments ≠ []) ∧
      ∀ child ∈ command.subcommands, child.offence? = none := by
  obtain ⟨name, aliases, own, executor, usages, subcommands⟩ := command
  rw [offence?, ← firstOffence?_eq_none_iff]
  cases Text.isBlankText name with
  | true => simp
  | false => simp [usageOffence?, List.findIdx?_eq_none_iff]

/-! ### Checking and copying -/

mutual

/-- The table of a command is its copy, unless there is an offence in its tree. -/
theorem extract_eq : ∀ command : Command γ ε, command.extract =
    match command.offence? with
    | some cause => .error cause
    | none => .ok command.table
  | ⟨name, aliases, guard, executor, usages, subcommands⟩ => by
    rw [extract, offence?, table, extractEach_eq subcommands]
    -- Extraction stops at the check that makes the first offence, and copies behind the last one.
    cases Text.isBlankText name with
    | true => rfl
    | false =>
      cases usageOffence? name usages with
      | some offence => rfl
      | none => cases firstOffence? subcommands <;> rfl

theorem extractEach_eq : ∀ commands : List (Command γ ε), extractEach commands =
    match firstOffence? commands with
    | some cause => .error cause
    | none => .ok (tables commands)
  | [] => rfl
  | command :: rest => by
    rw [extractEach, firstOffence?, tables, extract_eq command, extractEach_eq rest]
    cases command.offence? with
    | some cause => rfl
    | none => cases firstOffence? rest <;> rfl

end

theorem extract_eq_error_iff {cause : CommandError} :
    command.extract = .error cause ↔ command.offence? = some cause := by
  rw [extract_eq]
  cases command.offence? <;> simp

theorem extract_eq_ok_iff {table : CommandTable γ ε} :
    command.extract = .ok table ↔ command.offence? = none ∧ table = command.table := by
  rw [extract_eq]
  cases command.offence? <;> simp [eq_comm]

theorem extractEach_eq_error_iff {cause : CommandError} :
    extractEach commands = .error cause ↔ firstOffence? commands = some cause := by
  rw [extractEach_eq]
  cases firstOffence? commands <;> simp

end Command

/-! ### Mirror images -/

/-- A table mirrors a command: it has the same name and aliases, the same guard, executor and usages, and
its tables mirror the subcommands, one by one and in order. -/
inductive CommandTable.Mirrors : CommandTable γ ε → Command γ ε → Prop
  | intro {table : CommandTable γ ε} {command : Command γ ε} (name : table.name = command.name)
      (aliases : table.aliases = command.aliases) (guard : table.guard = command.guard)
      (executor : table.executor = command.executor) (usages : table.usages = command.usages)
      (subcommands : List.Forall₂ Mirrors table.subcommands command.subcommands) :
      Mirrors table command

namespace CommandTable

mutual

theorem mirrors_table : ∀ command : Command γ ε, command.table.Mirrors command
  | ⟨name, aliases, guard, executor, usages, subcommands⟩ => by
    rw [Command.table]
    exact .intro rfl rfl rfl rfl rfl (mirrors_tables subcommands)

theorem mirrors_tables : ∀ commands : List (Command γ ε),
    List.Forall₂ Mirrors (Command.tables commands) commands
  | [] => .nil
  | command :: rest => .cons (mirrors_table command) (mirrors_tables rest)

end

mutual

theorem eq_table_of_mirrors : ∀ (command : Command γ ε) {table : CommandTable γ ε},
    table.Mirrors command → table = command.table
  | ⟨name, aliases, guard, executor, usages, subcommands⟩,
      ⟨name', aliases', guard', executor', usages', subcommands'⟩,
      .intro named aliased guarded executed used below => by
    obtain rfl : name' = name := named
    obtain rfl : aliases' = aliases := aliased
    obtain rfl : guard' = guard := guarded
    obtain rfl : executor' = executor := executed
    obtain rfl : usages' = usages := used
    obtain rfl : subcommands' = Command.tables subcommands := eq_tables_of_mirrors subcommands below
    rw [Command.table]

theorem eq_tables_of_mirrors : ∀ (commands : List (Command γ ε)) {tables : List (CommandTable γ ε)},
    List.Forall₂ Mirrors tables commands → tables = Command.tables commands
  | [], _, .nil => rfl
  | command :: rest, _, .cons first below => by
    rw [Command.tables, ← eq_table_of_mirrors command first, ← eq_tables_of_mirrors rest below]

end

/-- The copy of a command is the one table that mirrors it. -/
theorem mirrors_iff {table : CommandTable γ ε} {command : Command γ ε} :
    table.Mirrors command ↔ table = command.table :=
  ⟨eq_table_of_mirrors command, fun same => same ▸ mirrors_table command⟩

end CommandTable

/-! ### What a command registers -/

namespace Command

/-- The registrations of a command at `base`, given the guard that encloses it. -/
def registrationsAt (inherited : Option (Guard γ)) (base : List Argument) (command : Command γ ε) :
    List (Registration γ ε) :=
  command.table.registrationsAt inherited base

/-- The registrations of commands below `base`, each one once for every name. -/
def branches (guard : Option (Guard γ)) (base : List Argument) (commands : List (Command γ ε)) :
    List (Registration γ ε) :=
  CommandTable.branches guard base (tables commands)

variable (inherited guard own : Option (Guard γ)) (base : List Argument) (name : String)
  (aliases : List String) (executor : Option ε) (usages : List (Usage γ ε))
  (subcommands rest : List (Command γ ε)) (command : Command γ ε)

/-- A command registers itself, then its usages, and then its subcommands. -/
theorem registrationsAt_mk :
    registrationsAt inherited base ⟨name, aliases, own, executor, usages, subcommands⟩ =
      ⟨base, name, CommandTable.ownEntry (Guard.join inherited own) executor⟩ ::
        (usages.map (CommandTable.usageRegistration name (Guard.join inherited own) base) ++
          branches (Guard.join inherited own) base subcommands) := by
  rw [registrationsAt, table, CommandTable.registrationsAt]
  rfl

@[simp] theorem branches_nil : branches guard base ([] : List (Command γ ε)) = [] := rfl

/-- The first of some commands is registered at each of its names, and then the others are. -/
theorem branches_cons :
    branches guard base (command :: rest) =
      command.names.flatMap (fun name => command.registrationsAt guard (base ++ [.literal name])) ++
        branches guard base rest := by
  rw [branches, tables, CommandTable.branches, names_table]
  rfl

end Command

end Dispatch
