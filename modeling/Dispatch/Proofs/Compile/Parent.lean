import Dispatch.Proofs.Compile.Account
import Dispatch.Proofs.Compile.Coupling
import Dispatch.Proofs.Text.Words

/-!
# Several commands and their parent

Several commands are compiled by a loop of its own: the root is no command, and each command is folded in at
the child for every one of its names. A command that has nothing but these commands below it is folded in at
the root like any other command. The two ways do the same at every state, so that compiling several commands
comes to the same as compiling the parent, the final report aside.

## Main definitions

* `Command.parentOf` — a command that has nothing but subcommands
* `Progress.foldEach` — compiles several commands below the root

## Main results

* `Progress.foldBelow_eq_forM`, `Progress.foldEach_eq_foldAt` — the loop and the descent into the parent
* `CompileUnit.together_eq_parent` — several commands are compiled like the subcommands of a parent
-/

set_option autoImplicit false

namespace Dispatch

variable {γ ε : Type}

/-- A command with neither a guard nor an executor nor usages, which has some commands below it. -/
def Command.parentOf (name : String) (aliases : List String) (commands : List (Command γ ε)) :
    Command γ ε :=
  { Command.ofName name with aliases := aliases, subcommands := commands }

/-- A parent with a name offends exactly as the commands below it do. -/
theorem Command.offence?_parentOf {name : String} (named : Text.trim name.toList ≠ [])
    (aliases : List String) (commands : List (Command γ ε)) :
    (parentOf name aliases commands).offence? = firstOffence? commands := by
  have solid : Text.isBlankText name = false := by
    rw [← Bool.not_eq_true, Text.isBlankText_iff, ← Text.trim_eq_nil_iff]
    exact named
  rw [parentOf, ofName, offence?, solid, usageOffence?]
  rfl

namespace Progress

/-- Compiles several commands below the root, each one at the child for every one of its names and without
an enclosing guard. -/
def foldEach (settings : Settings) (commands : List (Command γ ε)) : Compile γ ε Unit :=
  commands.forM fun command => command.names.forM fun name => do
    let child ← ensureChild .root (.literal name)
    foldAt settings none child command

/-- Commands below a node are compiled one after the other. -/
theorem foldBelow_eq_forM (settings : Settings) (guard : Option (Guard γ)) (node : NodeId)
    (commands : List (Command γ ε)) :
    foldBelow settings guard node commands =
      commands.forM (fun command => command.names.forM fun name =>
        ensureChild node (.literal name) >>= fun child => foldAt settings guard child command) := by
  induction commands with
  | nil => rw [foldBelow, List.forM]
  | cons command rest ih => rw [foldBelow, ih, List.forM]

/-- At the root, a parent adds nothing to the commands below it. -/
theorem foldEach_eq_foldAt (settings : Settings) (name : String) (aliases : List String)
    (commands : List (Command γ ε)) (progress : Progress γ ε) :
    foldEach settings commands progress =
      foldAt settings none .root (Command.parentOf name aliases commands) progress := by
  rw [foldEach, ← foldBelow_eq_forM, Command.parentOf, Command.ofName, foldAt]
  rfl

end Progress

namespace CompileUnit

variable {name : String}

theorem fold_together (settings : Settings) (commands : List (Command γ ε)) :
    (together commands).fold settings = Progress.foldEach settings commands :=
  Progress.foldBelow_eq_forM settings none .root commands

/-- The registrations of several commands are processed as those of their parent are. -/
theorem registerAll_together_eq (settings : Settings) (name : String) (aliases : List String)
    (commands : List (Command γ ε)) :
    Progress.registerAll settings (together commands).registrations .start =
      Progress.registerAll settings (alone (Command.parentOf name aliases commands)).registrations
        .start :=
  calc
    _ = Progress.foldEach settings commands .start := by rw [← fold_eq, fold_together]
    _ = Progress.foldAt settings none .root (Command.parentOf name aliases commands) .start :=
      Progress.foldEach_eq_foldAt settings name aliases commands .start
    _ = _ := fold_eq settings (alone (Command.parentOf name aliases commands))

/-- Several commands are compiled like the subcommands of a parent that has nothing else but names. They are
folded in by the loop over the commands, and at every state this does what descending into the parent does.
If one of them is refused, then so is the parent, for the same reason; if the arena is too small, both
compilations report the same and fail with the same error; and otherwise both end with the same trie after
reporting the same nodes and second terminals in the same order, so that only their last reports differ. -/
theorem together_eq_parent (settings : Settings) (named : Text.trim name.toList ≠ [])
    (aliases : List String) (commands : List (Command γ ε)) :
    let whole := Trie.ofCommands settings commands
    let parent := Trie.ofCommand settings (Command.parentOf name aliases commands)
    (Progress.registerAll settings (CommandTable.mergedRegistrations (Command.tables commands)) .start =
        Progress.foldEach settings commands .start ∧
      ∀ progress, Progress.foldEach settings commands progress =
        Progress.foldAt settings none .root (Command.parentOf name aliases commands) progress) ∧
    (∀ cause, Command.extractEach commands = .error cause →
      whole = ⟨.error (.invalid cause), #[]⟩ ∧ parent = ⟨.error (.invalid cause), #[]⟩) ∧
    (∀ error, whole.result = .error error → parent = whole) ∧
    ∀ trie, whole.result = .ok trie → ∃ steps : Array Event,
      (∀ event ∈ steps, event.isUnderway = true) ∧
      whole = ⟨.ok trie, steps.push (.merged commands.length trie.size trie.terminalCount)⟩ ∧
      parent = ⟨.ok trie, steps.push (.built name trie.size trie.terminalCount)⟩ := by
  intro whole parent
  have offences : Command.firstOffence? (together commands).commands =
      Command.firstOffence? (alone (Command.parentOf name aliases commands)).commands := by
    rw [CompileUnit.commands, CompileUnit.commands, Command.firstOffence?,
      Command.offence?_parentOf named aliases, Command.firstOffence?, Option.or_none]
  have ends : Progress.EndAlike Eq
      (Progress.registerAll settings (together commands).registrations .start)
      (Progress.registerAll settings (alone (Command.parentOf name aliases commands)).registrations
        .start) := by
    rw [registerAll_together_eq settings name aliases commands]
    exact .refl (fun _ => rfl) _
  obtain ⟨progress, _, rfl, outcome⟩ := compile_coupled offences rfl ends
  refine ⟨⟨?_, Progress.foldEach_eq_foldAt settings name aliases commands⟩, ?_, ?_, ?_⟩
  · rw [← fold_together]
    exact (fold_eq settings (together commands)).symm
  · intro cause refused
    have first : Command.firstOffence? (together commands).commands = some cause :=
      Command.extractEach_eq_error_iff.mp refused
    have first' : Command.firstOffence?
        (alone (Command.parentOf name aliases commands)).commands = some cause := offences ▸ first
    exact ⟨compile_eq_of_offence first settings, compile_eq_of_offence first' settings⟩
  · intro error failed
    rcases outcome with ⟨_, here, there⟩ | ⟨here, -⟩
    · exact there.trans here.symm
    · exact absurd ((congrArg Compilation.result here).symm.trans failed) (by simp)
  · intro trie compiled
    have compiled : ((together commands).compile settings).result = .ok trie := compiled
    obtain ⟨_, -, -, -, underway, log⟩ := exists_accounted_of_compile compiled
    rcases outcome with ⟨_, here, -⟩ | ⟨here, there⟩
    · exact absurd ((congrArg Compilation.result here).symm.trans compiled) (by simp)
    · obtain rfl : progress.trie = trie :=
        Except.ok.inj ((congrArg Compilation.result here).symm.trans compiled)
      -- The last report counts the terminals, so what the two tell of them is the same.
      rw [here, Array.push_eq_push] at log
      obtain ⟨last, before⟩ := log
      have counted : progress.terminals = progress.trie.terminalCount := by
        simpa [summary] using last
      refine ⟨progress.log, before ▸ underway, ?_, ?_⟩
      · rw [← counted]
        exact here
      · rw [← counted]
        exact there

/-- An example: two commands, where the name of the second one is an alias of the first. -/
def ways : List (Command String String) :=
  [{ name := "north"
     aliases := ["n"]
     guard := some (.single "guest")
     executor := some "go north"
     usages := []
     subcommands := [] },
    { name := "n"
      aliases := []
      guard := none
      executor := some "take a note"
      usages := []
      subcommands := [] }]

/-- Below the root and below the parent `compass`, the two are compiled to the same three nodes, and in both
cases a warning tells that the second one comes to a node that is taken. -/
theorem ways_below_parent :
    let settings : Settings := { precedence := .keepFirst, warnOnDuplicate := true }
    ∃ trie steps,
      Trie.ofCommands settings ways = ⟨.ok trie, steps.push (.merged 2 3 2)⟩ ∧
      Trie.ofCommand settings (Command.parentOf "compass" ["card"] ways) =
        ⟨.ok trie, steps.push (.built "compass" 3 2)⟩ ∧
      duplicates steps = [.duplicateTerminal true "n" ⟨2, by decide⟩ .keepFirst] := by
  intro settings
  obtain ⟨trie, compiled⟩ :=
    (exists_compile_eq_ok_iff settings (together ways)).mpr ⟨by decide, by decide⟩
  have named : Text.trim "compass".toList ≠ [] := by decide
  obtain ⟨-, -, -, ends⟩ := together_eq_parent settings named ["card"] ways
  obtain ⟨steps, -, whole, parent⟩ := ends trie compiled
  have last : (Trie.ofCommands settings ways).log.back? = some (.merged 2 3 2) := by decide +kernel
  have told : duplicates (Trie.ofCommands settings ways).log =
      [.duplicateTerminal true "n" ⟨2, by decide⟩ .keepFirst] := by
    decide +kernel
  -- The numbers in the last report are those of the trie.
  rw [whole, Array.back?_push] at last
  obtain ⟨-, size, count⟩ : ways.length = 2 ∧ trie.size = 3 ∧ trie.terminalCount = 2 := by
    simpa using last
  rw [whole, duplicates_push] at told
  rw [size, count] at whole parent
  exact ⟨trie, steps, whole, parent, (List.append_nil _).symm.trans told⟩

end CompileUnit

end Dispatch
