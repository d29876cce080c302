import Dispatch.Proofs.Compile.Points

/-!
# Compiling in place

A compilation walks every path from the root. As a node that exists is found again by its path, it
comes to the same to descend into the command tree with the node of each command in hand, to place
the terminal of a command right there, and to walk the paths of its usages and the names of its
subcommands from that node.

## Main definitions

* `Progress.foldAt`, `Progress.foldBelow` — compile a command at a node, commands below a node
* `Progress.Keeps` — every path that led to a node leads to it still

## Main results

* `Progress.ensurePath_of_lookup?` — a path can be walked from any node on it
* `Progress.registerAll_keeps` — no registration moves a node
* `Progress.foldAt_eq`, `Progress.foldBelow_eq` — compiling in place processes the registrations
* `CompileUnit.result_eq_fold` — a whole compilation can be done in place
-/

set_option autoImplicit false

namespace Dispatch

open Argument

variable {γ ε : Type}

theorem Command.exists_registrationsAt_eq_cons (command : Command γ ε)
    (inherited : Option (Guard γ)) (base : List Argument) :
    ∃ first others, command.registrationsAt inherited base = first :: others ∧
      first.path = base := by
  obtain ⟨name, aliases, own, executor, usages, subcommands⟩ := command
  rw [registrationsAt_mk]
  exact ⟨_, _, rfl, rfl⟩

namespace Progress

variable {progress before after later : Progress γ ε} {settings : Settings} {start node id : NodeId}
  {argument : Argument} {base path : List Argument} {registration : Registration γ ε}
  {registrations more : List (Registration γ ε)}

/-! ### The descent -/

/-- Walks the arguments of a usage from the node of its command, and places its terminal. -/
def foldUsage (settings : Settings) (name : String) (guard : Option (Guard γ)) (node : NodeId)
    (usage : Usage γ ε) : Compile γ ε Unit := do
  let last ← ensurePath node usage.arguments
  modify (place settings name last
    ((Terminal.of? (Guard.join guard usage.guard) usage.executor).map Entry.terminal))

mutual

/-- Compiles a command at its node, given the guard that encloses it. -/
def foldAt (settings : Settings) (inherited : Option (Guard γ)) (node : NodeId) :
    Command γ ε → Compile γ ε Unit
  | ⟨name, _, own, executor, usages, subcommands⟩ => do
    let guard := Guard.join inherited own
    modify (place settings name node (CommandTable.ownEntry guard executor))
    usages.forM (foldUsage settings name guard node)
    foldBelow settings guard node subcommands

/-- Compiles commands below a node, each one at the child for every one of its names. -/
def foldBelow (settings : Settings) (guard : Option (Guard γ)) (node : NodeId) :
    List (Command γ ε) → Compile γ ε Unit
  | [] => pure ()
  | command :: rest => do
    command.names.forM fun name => do
      let child ← ensureChild node (.literal name)
      foldAt settings guard child command
    foldBelow settings guard node rest

end

/-! ### Nodes stay where they are -/

/-- Every path that led to a node leads to it still. -/
def Keeps (before after : Progress γ ε) : Prop :=
  ∀ ⦃path id⦄, before.trie.lookup? path = some id → after.trie.lookup? path = some id

theorem Keeps.refl (progress : Progress γ ε) : Keeps progress progress :=
  fun _ _ found => found

theorem Keeps.trans (first : Keeps before after) (second : Keeps after later) : Keeps before later :=
  fun _ _ found => second (first found)

theorem ensureChild_keeps (valid : node.index < progress.trie.size)
    (ensured : ensureChild node argument progress = .ok id after) : Keeps progress after :=
  fun _ _ found => (ensureChild_extends valid ensured).lookup?_eq found

/-- The child is found at its parent from then on. -/
theorem findChild?_of_ensureChild (valid : node.index < progress.trie.size)
    (ensured : ensureChild node argument progress = .ok id after) :
    after.trie.findChild? node argument = some id := by
  rcases ensureChild_cases ensured with ⟨present, rfl⟩ | ⟨absent, free, appended⟩
  · exact present
  · rw [appended, Trie.findChild?_insertChild free valid absent,
      if_pos ⟨rfl, SamePosition.refl argument⟩]

/-- So the path of the child leads to it from then on. -/
theorem ensureChild_found (found : progress.trie.lookup? base = some node)
    (ensured : ensureChild node argument progress = .ok id after) :
    after.trie.lookup? (base ++ [argument]) = some id := by
  have valid := Trie.lookup?_lt_size found
  rw [Trie.lookup?_concat, ensureChild_keeps valid ensured found, Option.bind_some]
  exact findChild?_of_ensureChild valid ensured

theorem place_keeps (settings : Settings) (command : String) (id : NodeId)
    (entry : Option (Entry γ ε)) (progress : Progress γ ε) :
    Keeps progress (place settings command id entry progress) := by
  intro path i found
  rcases trie_place settings command id entry progress with ⟨same, -⟩ | ⟨terminal, put, -⟩
  · rw [same, found]
  · rw [put, Trie.lookup?_setTerminal, found]

/-- Processing registrations moves no node. -/
theorem registerAll_keeps (ended : registerAll settings registrations progress = .ok () after) :
    Keeps progress after :=
  fun _ _ found => (extends_of_registerAll ended).lookup?_eq found

/-! ### Walking from a node on the way -/

theorem ensureChild_of_findChild? (present : progress.trie.findChild? node argument = some id) :
    ensureChild node argument progress = .ok id progress := by
  rw [ensureChild_eq]
  split
  · rename_i other found
    rw [Option.some_inj.mp (present.symm.trans found)]
  · rename_i absent
    simp [present] at absent

/-- A path can be walked from any node on it. -/
theorem ensurePath_append (found : base.foldlM progress.trie.findChild? start = some node) :
    ensurePath start (base ++ path) progress = ensurePath node path progress := by
  -- Every step on the way to the node finds a child, so it changes nothing.
  induction base generalizing start with
  | nil =>
    injection found with same
    rw [same, List.nil_append]
  | cons argument base ih =>
    rw [List.foldlM_cons] at found
    obtain ⟨next, present, led⟩ := Option.bind_eq_some_iff.mp found
    rw [List.cons_append, ensurePath_cons, ensureChild_of_findChild? present]
    exact ih led

theorem ensurePath_of_lookup? (found : progress.trie.lookup? base = some node) :
    ensurePath .root (base ++ path) progress = ensurePath node path progress :=
  ensurePath_append found

theorem ensurePath_of_lookup?_self (found : progress.trie.lookup? base = some node) :
    ensurePath .root base progress = .ok node progress := by
  rw [← List.append_nil base, ensurePath_of_lookup? found]
  rfl

/-- A child is walked to from its parent as it is from the root. -/
theorem ensurePath_concat (found : progress.trie.lookup? base = some node) :
    ensurePath .root (base ++ [argument]) progress = ensureChild node argument progress := by
  rw [ensurePath_of_lookup? found, ensurePath_cons]
  cases ensureChild node argument progress <;> rfl

/-! ### The descent processes the registrations -/

theorem registerAll_singleton :
    registerAll settings [registration] progress = register settings registration progress := by
  rw [registerAll_cons]
  cases register settings registration progress <;> rfl

theorem registerAll_append :
    registerAll settings (registrations ++ more) progress =
      match registerAll settings registrations progress with
      | .ok () next => registerAll settings more next
      | .error error next => .error error next := by
  induction registrations generalizing progress with
  | nil => rfl
  | cons registration registrations ih =>
    rw [List.cons_append, registerAll_cons, registerAll_cons]
    cases register settings registration progress with
    | ok done next => exact ih
    | error error next => rfl

/-- What processes registrations one list after the other processes both. -/
theorem bind_eq_registerAll {first second : Compile γ ε Unit}
    (front : first progress = registerAll settings registrations progress)
    (back : ∀ next, Keeps progress next → second next = registerAll settings more next) :
    (first >>= fun _ => second) progress =
      registerAll settings (registrations ++ more) progress := by
  rw [bind_apply, front, registerAll_append]
  cases ended : registerAll settings registrations progress with
  | ok done next => exact back next (registerAll_keeps ended)
  | error error next => rfl

theorem forM_eq_registerAll {α : Type} {step : α → Compile γ ε Unit}
    {part : α → List (Registration γ ε)} (items : List α)
    (each : ∀ item next, Keeps progress next →
      step item next = registerAll settings (part item) next) :
    items.forM step progress = registerAll settings (items.flatMap part) progress := by
  induction items generalizing progress with
  | nil => rfl
  | cons item items ih =>
    rw [List.flatMap_cons]
    refine bind_eq_registerAll (each item progress (Keeps.refl progress)) ?_
    intro next kept
    exact ih fun other later kept' => each other later (kept.trans kept')

/-- At a node of its path, an entry is placed where the registration would place it. -/
theorem modify_eq_registerAll (found : progress.trie.lookup? base = some node) (name : String)
    (entry : Option (Entry γ ε)) :
    (modify (place settings name node entry) : Compile γ ε Unit) progress =
      registerAll settings [⟨base, name, entry⟩] progress := by
  rw [registerAll_singleton, register_eq, ensurePath_of_lookup?_self found]
  rfl

theorem foldUsage_eq (found : progress.trie.lookup? base = some node) (name : String)
    (guard : Option (Guard γ)) (usage : Usage γ ε) :
    foldUsage settings name guard node usage progress =
      registerAll settings [CommandTable.usageRegistration name guard base usage] progress := by
  rw [registerAll_singleton, register_eq, CommandTable.usageRegistration, ensurePath_of_lookup? found,
    foldUsage, bind_apply]
  cases ensurePath node usage.arguments progress <;> rfl

/-- Descending to a child and processing from there what is registered at it and below it. -/
theorem descend_eq_registerAll {below : NodeId → Compile γ ε Unit}
    (found : progress.trie.lookup? base = some node)
    (here : registration.path = base ++ [argument])
    (same : ∀ child next, next.trie.lookup? (base ++ [argument]) = some child →
      below child next = registerAll settings (registration :: registrations) next) :
    (ensureChild node argument >>= below) progress =
      registerAll settings (registration :: registrations) progress := by
  have walk : ensurePath .root (base ++ [argument]) progress = _ := ensurePath_concat found
  rw [bind_apply, registerAll_cons, register_eq, here, walk]
  cases ensured : ensureChild node argument progress with
  | error error next => rfl
  | ok child next =>
    have led := ensureChild_found found ensured
    -- Processed again where it was just processed, the walk finds the child and changes nothing.
    simp only
    rw [same child next led, registerAll_cons, register_eq, here, ensurePath_of_lookup?_self led]

mutual

/-- Compiling a command at a node of its path processes the registrations of the command. -/
theorem foldAt_eq (settings : Settings) (inherited : Option (Guard γ)) :
    ∀ (command : Command γ ε) {base : List Argument} {node : NodeId} {progress : Progress γ ε},
      progress.trie.lookup? base = some node →
        foldAt settings inherited node command progress =
          registerAll settings (command.registrationsAt inherited base) progress
  | ⟨name, aliases, own, executor, usages, subcommands⟩, base, node, progress, found => by
    rw [foldAt, Command.registrationsAt_mk, ← List.singleton_append]
    refine bind_eq_registerAll (modify_eq_registerAll found name _) ?_
    intro next kept
    refine bind_eq_registerAll ?_ ?_
    · rw [List.map_eq_flatMap]
      refine forM_eq_registerAll usages ?_
      intro usage later kept'
      exact foldUsage_eq (kept' (kept found)) name _ usage
    · intro later kept'
      exact foldBelow_eq settings _ subcommands (kept' (kept found))

theorem foldBelow_eq (settings : Settings) (guard : Option (Guard γ)) :
    ∀ (commands : List (Command γ ε)) {base : List Argument} {node : NodeId}
      {progress : Progress γ ε}, progress.trie.lookup? base = some node →
        foldBelow settings guard node commands progress =
          registerAll settings (Command.branches guard base commands) progress
  | [], _, _, _, _ => by
    rw [foldBelow, Command.branches_nil]
    rfl
  | command :: rest, base, node, progress, found => by
    rw [foldBelow, Command.branches_cons]
    refine bind_eq_registerAll (forM_eq_registerAll command.names ?_) ?_
    · intro name next kept
      obtain ⟨first, others, own, here⟩ := command.exists_registrationsAt_eq_cons guard
        (base ++ [.literal name])
      -- The first registration of the command is its own, at the child.
      rw [own]
      refine descend_eq_registerAll (kept found) here ?_
      intro child later led
      rw [foldAt_eq settings guard command led, own]
    · intro next kept
      exact foldBelow_eq settings guard rest (kept found)

end

end Progress

namespace CompileUnit

/-- Compiles the commands of a unit in place. -/
def fold (settings : Settings) : CompileUnit γ ε → Compile γ ε Unit
  | alone command => Progress.foldAt settings none .root command
  | together commands => Progress.foldBelow settings none .root commands

theorem fold_eq (settings : Settings) (unit : CompileUnit γ ε) :
    unit.fold settings .start = Progress.registerAll settings unit.registrations .start := by
  cases unit with
  | alone command => exact Progress.foldAt_eq settings none command Trie.lookup?_nil
  | together commands => exact Progress.foldBelow_eq settings none commands Trie.lookup?_nil

/-- A unit of usable commands can be compiled in place. -/
theorem result_eq_fold {settings : Settings} {unit : CompileUnit γ ε} (usable : unit.Usable) :
    (unit.compile settings).result =
      match unit.fold settings .start with
      | .ok _ progress => .ok progress.trie
      | .error error _ => .error error := by
  rw [fold_eq]
  exact result_of_usable usable

end CompileUnit

end Dispatch
