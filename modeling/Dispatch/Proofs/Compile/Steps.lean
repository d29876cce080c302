import Dispatch.Proofs.Compile.Account
import Dispatch.Proofs.Compile.Refusal
import Dispatch.Proofs.Compile.Room
import Mathlib.Algebra.GroupWithZero.Nat

/-!
# How many nodes a command takes

Whoever folds a command into a trie takes one step for each argument of its usages, and for each name of a
subcommand one step to the child of that name and all steps of the subcommand from there. A step appends a
node or finds one, so there are at most as many nodes besides the root as there were steps, and as many only
if every step appended a node. The arena is too small only if there are more steps than slots behind the
root.

The number of argument positions counts each subcommand once. It is the number of steps as long as no
subcommand has an alias, and too small otherwise, as every alias repeats the whole subcommand.

## Main definitions

* `Command.walked`, `Command.weight` — the arguments to which steps are taken, and how many they are
* `createdArguments` — the arguments of the nodes that a log reports
* `Progress.Creates`, `Progress.Walks` — what is appended on the way is part of what is walked, also if the
  computation fails before its end

## Main results

* `Command.positionCount_le_weight` — when the argument positions are as many as the steps
* `Progress.foldAt_walks` — what folding a command in appends
* `CompileUnit.size_le_weight` — bounds for the nodes of a compiled trie
-/

set_option autoImplicit false

namespace Dispatch

variable {γ ε : Type}

/-! ### Counting steps -/

namespace Command

mutual

/-- The number of steps that a command takes: one for each argument of a usage, and for each name of a
subcommand one and those of the subcommand. -/
def weight : Command γ ε → Nat
  | ⟨_, _, _, _, usages, subcommands⟩ =>
    (usages.map (·.arguments.length)).sum + weights subcommands

/-- The number of steps that commands below a node take. -/
def weights : List (Command γ ε) → Nat
  | [] => 0
  | command :: rest => command.names.length * (1 + command.weight) + weights rest

end

mutual

/-- The arguments to which steps are taken, in order: those of the usages, and then for each name of a
subcommand the literal and those of the subcommand. -/
def walked : Command γ ε → List Argument
  | ⟨_, _, _, _, usages, subcommands⟩ => usages.flatMap (·.arguments) ++ walkedBelow subcommands

/-- The arguments to which steps are taken for commands below a node. -/
def walkedBelow : List (Command γ ε) → List Argument
  | [] => []
  | command :: rest =>
    command.names.flatMap (fun name => .literal name :: command.walked) ++ walkedBelow rest

end

theorem weights_eq_sum (commands : List (Command γ ε)) :
    weights commands = (commands.map fun command => command.names.length * (1 + command.weight)).sum := by
  induction commands with
  | nil => rfl
  | cons command rest ih => rw [weights, ih, List.map_cons, List.sum_cons]

theorem weight_eq (command : Command γ ε) :
    command.weight = (command.usages.map (·.arguments.length)).sum +
      (command.subcommands.map fun child => child.names.length * (1 + child.weight)).sum := by
  obtain ⟨name, aliases, own, executor, usages, subcommands⟩ := command
  rw [weight, weights_eq_sum]

mutual

/-- There are as many steps as arguments to which they are taken. -/
theorem length_walked : ∀ command : Command γ ε, command.walked.length = command.weight
  | ⟨name, aliases, own, executor, usages, subcommands⟩ => by
    rw [walked, weight, List.length_append, List.length_flatMap, length_walkedBelow subcommands]

theorem length_walkedBelow : ∀ commands : List (Command γ ε),
    (walkedBelow commands).length = weights commands
  | [] => rfl
  | command :: rest => by
    have each (name : String) : (Argument.literal name :: command.walked).length = 1 + command.weight := by
      rw [List.length_cons, length_walked command, Nat.add_comm]
    rw [walkedBelow, weights, List.length_append, List.length_flatMap, length_walkedBelow rest]
    simp only [each, List.map_const', List.sum_replicate_nat]

end

theorem positionCount_table (name : String) (aliases : List String) (own : Option (Guard γ))
    (executor : Option ε) (usages : List (Usage γ ε)) (subcommands : List (Command γ ε)) :
    (table ⟨name, aliases, own, executor, usages, subcommands⟩).positionCount =
      (usages.map (·.arguments.length)).sum + CommandTable.positionCounts (tables subcommands) := by
  rw [table, CommandTable.positionCount, List.sum_eq_foldr, List.foldr_map]

mutual

/-- A command takes at least one step for each argument position of its table. They are equally many exactly
if no command below it has an alias. -/
theorem positionCount_le_weight : ∀ command : Command γ ε,
    command.table.positionCount ≤ command.weight ∧
      (command.weight = command.table.positionCount ↔
        ∀ member ∈ treesOf command.subcommands, member.aliases = [])
  | ⟨name, aliases, own, executor, usages, subcommands⟩ => by
    obtain ⟨bound, same⟩ := positionCounts_le_weights subcommands
    rw [positionCount_table, weight, ← same]
    omega

theorem positionCounts_le_weights : ∀ commands : List (Command γ ε),
    CommandTable.positionCounts (tables commands) ≤ weights commands ∧
      (weights commands = CommandTable.positionCounts (tables commands) ↔
        ∀ member ∈ treesOf commands, member.aliases = [])
  | [] => by simp [tables, CommandTable.positionCounts, weights, treesOf]
  | command :: rest => by
    obtain ⟨bound, same⟩ := positionCount_le_weight command
    obtain ⟨bounds, sames⟩ := positionCounts_le_weights rest
    -- The first name takes the steps that the positions count, and every alias takes them again.
    have repeated : command.names.length * (1 + command.weight) =
        command.aliases.length * (1 + command.weight) + (1 + command.weight) := by
      rw [names, List.length_cons, Nat.succ_mul]
    have alone : command.aliases.length * (1 + command.weight) = 0 ↔ command.aliases = [] := by
      rw [Nat.mul_eq_zero, List.length_eq_zero_iff]
      exact or_iff_left (by omega)
    have members : (∀ member ∈ treesOf (command :: rest), member.aliases = []) ↔
        (command.aliases = [] ∧ ∀ member ∈ treesOf command.subcommands, member.aliases = []) ∧
          ∀ member ∈ treesOf rest, member.aliases = [] := by
      obtain ⟨name, aliases, own, executor, usages, subcommands⟩ := command
      simp [treesOf, tree, or_imp, forall_and, and_assoc]
    rw [tables, CommandTable.positionCounts, weights, repeated, members, ← same, ← sames, ← alone]
    omega

end

end Command

/-! ### Appended nodes -/

/-- The arguments of the nodes that a log reports, in order. -/
def createdArguments (log : Array Event) : List Argument := (creations log).map (·.argument)

theorem createdArguments_push {log : Array Event} {event : Event} :
    createdArguments (log.push event) =
      createdArguments log ++ (event.creation?.map (·.argument)).toList := by
  rw [createdArguments, creations_push, List.map_append, createdArguments]
  cases event.creation? <;> rfl

namespace Progress

variable {settings : Settings} {progress after next : Progress γ ε} {walked more : List Argument}

/-- What was appended on the way from one state to another is, in order, part of what was walked: the log
reports it, and the arena has as many slots more. -/
def Creates (walked : List Argument) (progress after : Progress γ ε) : Prop :=
  ∃ made, made.Sublist walked ∧ createdArguments after.log = createdArguments progress.log ++ made ∧
    after.trie.size = progress.trie.size + made.length

/-- How a computation ends that walks some arguments. If it fails, it fails at one of them, and what it has
appended is part of what stands before. -/
def Walks {α : Type} (walked : List Argument) (progress : Progress γ ε) :
    EStateM.Result CompileError (Progress γ ε) α → Prop
  | .ok _ after => Creates walked progress after
  | .error _ after => ∃ front argument rest, walked = front ++ argument :: rest ∧
      Creates front progress after

theorem Creates.refl (progress : Progress γ ε) : Creates [] progress progress :=
  ⟨[], List.Sublist.slnil, (List.append_nil _).symm, rfl⟩

theorem Creates.trans (first : Creates walked progress next) (second : Creates more next after) :
    Creates (walked ++ more) progress after := by
  obtain ⟨made, part, told, size⟩ := first
  obtain ⟨made', part', told', size'⟩ := second
  refine ⟨made ++ made', part.append part', by rw [told', told, List.append_assoc], ?_⟩
  rw [size', size, List.length_append, Nat.add_assoc]

/-- Two computations, one after the other, walk what both of them walk. -/
theorem Walks.bind {α β : Type} {first : Compile γ ε α} {second : α → Compile γ ε β}
    (front : Walks walked progress (first progress)) (back : ∀ a next, Walks more next (second a next)) :
    Walks (walked ++ more) progress ((first >>= second) progress) := by
  rw [bind_apply]
  cases ended : first progress with
  | ok a next =>
    rw [ended] at front
    have onwards := back a next
    simp only
    cases finished : second a next with
    | ok b after =>
      rw [finished] at onwards
      exact front.trans onwards
    | error error after =>
      rw [finished] at onwards
      obtain ⟨begun, argument, rest, rfl, created⟩ := onwards
      exact ⟨walked ++ begun, argument, rest, (List.append_assoc ..).symm, front.trans created⟩
  | error error after =>
    rw [ended] at front
    obtain ⟨begun, argument, rest, rfl, created⟩ := front
    exact ⟨begun, argument, rest ++ more, List.append_assoc .., created⟩

/-- One step appends its argument or nothing. -/
theorem ensureChild_walks (node : NodeId) (argument : Argument) (progress : Progress γ ε) :
    Walks [argument] progress (ensureChild node argument progress) := by
  rw [ensureChild_eq]
  split
  · exact ⟨[], List.nil_sublist _, (List.append_nil _).symm, rfl⟩
  · split
    · exact ⟨[argument], List.Sublist.refl _, createdArguments_push,
        Trie.size_insertChild _ _ _ _ rfl⟩
    · exact ⟨[], argument, [], rfl, Creates.refl progress⟩

theorem ensurePath_walks (start : NodeId) (path : List Argument) (progress : Progress γ ε) :
    Walks path progress (ensurePath start path progress) := by
  induction path generalizing start progress with
  | nil => exact Creates.refl progress
  | cons argument path ih =>
    rw [ensurePath, List.foldlM_cons]
    exact Walks.bind (ensureChild_walks start argument progress) ih

/-- What fails only for want of room does not fail where there is room for every step: before the step that
would fail, fewer nodes were appended than steps are to be taken. -/
theorem exists_eq_ok_of_walks {α : Type} {result : EStateM.Result CompileError (Progress γ ε) α}
    (ends : EndsInRoom result) (walks : Walks walked progress result)
    (room : progress.trie.size + walked.length ≤ NodeId.capacity) : ∃ a after, result = .ok a after := by
  cases result with
  | ok a after => exact ⟨a, after, rfl⟩
  | error error after =>
    obtain ⟨-, full⟩ := ends
    obtain ⟨front, argument, rest, rfl, made, part, -, size⟩ := walks
    have bound := part.length_le
    rw [List.length_append, List.length_cons] at room
    omega

/-- Placing an entry appends nothing. -/
theorem place_walks (settings : Settings) (command : String) (id : NodeId)
    (entry : Option (Entry γ ε)) (progress : Progress γ ε) :
    Walks [] progress ((modify (place settings command id entry) : Compile γ ε Unit) progress) := by
  refine ⟨[], List.Sublist.slnil, ?_, size_place settings command id entry progress⟩
  rcases place_records settings command id entry progress with
    same | ⟨terminal, -, filled⟩ | ⟨trie, -, -, reported⟩
  · rw [same, List.append_nil]
  · rw [filled, List.append_nil]
  · rw [reported]
    exact createdArguments_push

theorem forM_walks {α : Type} {step : α → Compile γ ε Unit} {part : α → List Argument} (items : List α)
    (each : ∀ item progress, Walks (part item) progress (step item progress)) (progress : Progress γ ε) :
    Walks (items.flatMap part) progress (items.forM step progress) := by
  induction items generalizing progress with
  | nil => exact Creates.refl progress
  | cons item items ih =>
    rw [List.forM]
    exact Walks.bind (each item progress) fun _ => ih

theorem foldUsage_walks (settings : Settings) (name : String) (guard : Option (Guard γ)) (node : NodeId)
    (usage : Usage γ ε) (progress : Progress γ ε) :
    Walks usage.arguments progress (foldUsage settings name guard node usage progress) := by
  have walks : Walks (usage.arguments ++ []) progress
      (foldUsage settings name guard node usage progress) :=
    Walks.bind (ensurePath_walks node usage.arguments progress) fun id =>
      place_walks settings name id _
  rwa [List.append_nil] at walks

mutual

/-- Folding a command in appends, in order, part of what the command walks. -/
theorem foldAt_walks (settings : Settings) (inherited : Option (Guard γ)) :
    ∀ (command : Command γ ε) (node : NodeId) (progress : Progress γ ε),
      Walks command.walked progress (foldAt settings inherited node command progress)
  | ⟨name, aliases, own, executor, usages, subcommands⟩, node, progress => by
    rw [foldAt, Command.walked, ← List.nil_append (_ ++ _)]
    refine Walks.bind (place_walks settings name node _ progress) fun _ next => ?_
    refine Walks.bind ?_ fun _ => foldBelow_walks settings _ subcommands node
    exact forM_walks usages (foldUsage_walks settings name _ node) next

theorem foldBelow_walks (settings : Settings) (guard : Option (Guard γ)) :
    ∀ (commands : List (Command γ ε)) (node : NodeId) (progress : Progress γ ε),
      Walks (Command.walkedBelow commands) progress (foldBelow settings guard node commands progress)
  | [], node, progress => by
    rw [foldBelow]
    exact Creates.refl progress
  | command :: rest, node, progress => by
    rw [foldBelow, Command.walkedBelow]
    refine Walks.bind (forM_walks command.names (fun name next => ?_) progress) fun _ =>
      foldBelow_walks settings guard rest node
    rw [← List.singleton_append]
    exact Walks.bind (ensureChild_walks node _ next) fun child => foldAt_walks settings guard command child

end

end Progress

/-! ### Nodes of a compiled trie -/

namespace CompileUnit

variable {unit : CompileUnit γ ε} {settings : Settings} {trie : Trie γ ε}

/-- The arguments to which steps are taken for a unit. -/
def walked : CompileUnit γ ε → List Argument
  | alone command => command.walked
  | together commands => Command.walkedBelow commands

theorem registerAll_walks (settings : Settings) (unit : CompileUnit γ ε) :
    Progress.Walks unit.walked .start
      (Progress.registerAll settings unit.registrations .start) := by
  rw [← fold_eq]
  cases unit with
  | alone command => exact Progress.foldAt_walks settings none command .root .start
  | together commands => exact Progress.foldBelow_walks settings none commands .root .start

/-- The nodes that a compilation reports are, in order, part of what the unit walks, and they are all nodes
but the root. -/
theorem createdArguments_sublist (compiled : (unit.compile settings).result = .ok trie) :
    (createdArguments (unit.compile settings).log).Sublist unit.walked ∧
      trie.size = 1 + (createdArguments (unit.compile settings).log).length := by
  obtain ⟨progress, ended, rfl, log⟩ := exists_log_of_compile compiled
  have walks := registerAll_walks settings unit
  rw [ended] at walks
  obtain ⟨made, part, told, size⟩ := walks
  have silent : (unit.summary progress.trie.size progress.terminals).creation? = none := by
    cases unit <;> rfl
  -- Nothing was reported at the start, and the last report is about no node.
  have all : createdArguments (unit.compile settings).log = made := by
    rw [log, createdArguments_push, silent, told]
    simp [createdArguments, creations, Progress.start]
  rw [all]
  exact ⟨part, size⟩

/-- There are at most as many nodes besides the root as steps were taken, and as many only if every step
appended a node. -/
theorem size_le_length_walked (compiled : (unit.compile settings).result = .ok trie) :
    trie.size ≤ 1 + unit.walked.length ∧
      (trie.size = 1 + unit.walked.length ↔
        createdArguments (unit.compile settings).log = unit.walked) := by
  obtain ⟨part, size⟩ := createdArguments_sublist compiled
  have bound := part.length_le
  refine ⟨by omega, ?_⟩
  rw [← part.length_eq, size]
  omega

/-- Usable commands are compiled if an arena has a slot for every step. -/
theorem exists_compile_of_walked (usable : unit.Usable)
    (room : 1 + unit.walked.length ≤ NodeId.capacity) (settings : Settings) :
    ∃ trie, (unit.compile settings).result = .ok trie := by
  obtain ⟨_, progress, ended⟩ := Progress.exists_eq_ok_of_walks (registerAll_endsInRoom settings unit)
    (registerAll_walks settings unit) room
  refine ⟨progress.trie, ?_⟩
  rw [result_of_usable usable, ended]

/-- The steps of a command bound the nodes that it is compiled to. They are counted by adding up the
arguments of its usages and, for each name of a subcommand, one more than the steps of the subcommand; this
is the number of argument positions of its table exactly if no subcommand has an alias, and more otherwise.
Usable commands are compiled if the steps fit into an arena. The trie of one command has at most as many nodes
besides the root as the command takes steps, and as many only if every step appended a node; so without aliases
the argument positions of the table that was extracted are such a bound. The trie of several commands has
besides the root at most one node for each of their names and each of the steps from there. -/
theorem size_le_weight (settings : Settings) :
    (∀ command : Command γ ε,
      command.weight = (command.usages.map (·.arguments.length)).sum +
        (command.subcommands.map fun child => child.names.length * (1 + child.weight)).sum ∧
      ∀ table : CommandTable γ ε, table.Mirrors command →
        table.positionCount ≤ command.weight ∧
        (command.weight = table.positionCount ↔
          ∀ member ∈ Command.treesOf command.subcommands, member.aliases = [])) ∧
    (∀ command : Command γ ε,
      (command.offence? = none → 1 + command.weight ≤ NodeId.capacity →
        ∃ trie, (Trie.ofCommand settings command).result = .ok trie) ∧
      ∀ trie, (Trie.ofCommand settings command).result = .ok trie →
        let made := createdArguments (Trie.ofCommand settings command).log
        made.Sublist command.walked ∧
        trie.size ≤ 1 + command.weight ∧
        (trie.size = 1 + command.weight ↔ made = command.walked) ∧
        ∃ table, command.extract = .ok table ∧ table.Mirrors command ∧
          ((∀ member ∈ Command.treesOf command.subcommands, member.aliases = []) →
            trie.size ≤ 1 + table.positionCount ∧
            (trie.size = 1 + table.positionCount ↔ made = command.walked))) ∧
    ∀ commands : List (Command γ ε),
      let steps := (commands.map fun command => command.names.length * (1 + command.weight)).sum
      ((∀ command ∈ commands, command.offence? = none) → 1 + steps ≤ NodeId.capacity →
        ∃ trie, (Trie.ofCommands settings commands).result = .ok trie) ∧
      ∀ trie, (Trie.ofCommands settings commands).result = .ok trie → trie.size ≤ 1 + steps := by
  refine ⟨fun command => ⟨command.weight_eq, fun table mirrors => ?_⟩, fun command => ⟨?_, ?_⟩,
    fun commands => ⟨?_, ?_⟩⟩
  · rw [CommandTable.mirrors_iff.mp mirrors]
    exact command.positionCount_le_weight
  · intro sound room
    have usable : (alone command).Usable := List.forall_mem_singleton.mpr sound
    rw [← command.length_walked] at room
    exact exists_compile_of_walked usable room settings
  · intro trie compiled
    have compiled : ((alone command).compile settings).result = .ok trie := compiled
    obtain ⟨part, -⟩ := createdArguments_sublist compiled
    obtain ⟨bound, same⟩ := size_le_length_walked compiled
    have sound : command.offence? = none := usable_of_compile compiled command List.mem_cons_self
    simp only [walked, command.length_walked] at bound same
    refine ⟨part, bound, same, command.table, Command.extract_eq_ok_iff.mpr ⟨sound, rfl⟩,
      CommandTable.mirrors_table command, ?_⟩
    intro plain
    rw [← command.positionCount_le_weight.2.mpr plain]
    exact ⟨bound, same⟩
  · intro sound room
    have usable : (together commands).Usable := sound
    rw [← Command.weights_eq_sum, ← Command.length_walkedBelow] at room
    exact exists_compile_of_walked usable room settings
  · intro trie compiled
    have compiled : ((together commands).compile settings).result = .ok trie := compiled
    rw [← Command.weights_eq_sum, ← Command.length_walkedBelow]
    exact (size_le_length_walked compiled).1

/-- An example: a lamp that is switched on and off, the latter also in one room, and that is dimmed to a
level. -/
def lamp (aliases : List String) : Command String String :=
  { name := "lamp"
    aliases := []
    guard := none
    executor := none
    usages :=
      [⟨[.literal "on"], some "on", none⟩, ⟨[.literal "off", .typed "room" .word none], some "off", none⟩]
    subcommands :=
      [{ name := "dim"
         aliases := aliases
         guard := none
         executor := none
         usages := [⟨[.typed "level" .integer none], some "dim", none⟩]
         subcommands := [] }] }

/-- Without an alias, every one of its five argument positions becomes a node. An alias of the subcommand
adds two steps, and with them two nodes that are no argument positions. -/
theorem lamp_takes_steps :
    (∃ table trie, (lamp []).extract = .ok table ∧
      (Trie.ofCommand {} (lamp [])).result = .ok trie ∧ table.positionCount = 5 ∧ trie.size = 6) ∧
    ∃ table trie, (lamp ["d"]).extract = .ok table ∧
      (Trie.ofCommand {} (lamp ["d"])).result = .ok trie ∧ table.positionCount = 5 ∧
      (lamp ["d"]).weight = 7 ∧ trie.size = 8 := by
  obtain ⟨-, single, -⟩ := @size_le_weight String String {}
  constructor
  · obtain ⟨built, ends⟩ := single (lamp [])
    obtain ⟨trie, compiled⟩ := built (by decide) (by decide)
    obtain ⟨-, -, -, table, extracted, mirrors, plain⟩ := ends trie compiled
    obtain ⟨-, exact_iff⟩ := plain (by decide)
    have positions : table.positionCount = 5 := by
      rw [CommandTable.mirrors_iff.mp mirrors]
      decide
    refine ⟨table, trie, extracted, compiled, positions, ?_⟩
    rw [positions] at exact_iff
    refine exact_iff.mpr ?_
    decide +kernel
  · obtain ⟨built, ends⟩ := single (lamp ["d"])
    obtain ⟨trie, compiled⟩ := built (by decide) (by decide)
    obtain ⟨-, -, whole, table, extracted, mirrors, -⟩ := ends trie compiled
    have positions : table.positionCount = 5 := by
      rw [CommandTable.mirrors_iff.mp mirrors]
      decide
    refine ⟨table, trie, extracted, compiled, positions, by decide, whole.mpr ?_⟩
    decide +kernel

end CompileUnit

end Dispatch
