import Dispatch.Proofs.Compile.GuardChain
import Dispatch.Proofs.Descent
import Dispatch.Proofs.Guard.Gate

/-!
# The gates of a compiled trie

The guard of a command is a gate in front of everything below the node of the command, whatever is
registered there, by whom, and whichever registration has precedence. This needs that nobody else is
placed at the node: that each name on the way to it belongs to a single command, and that no usage
passes there.

## Main definitions

* `CompileUnit.Descends` — the commands on the way along some names from the root

## Main results

* `CompileUnit.gatedBy_of_descends` — the guards on a way are gates of all that is below its end
* `CompileUnit.gates_below` — said of one command alone, of one command among several, and of a
  subcommand at any depth
-/

set_option autoImplicit false

namespace Dispatch.CompileUnit

open Argument Command

variable {γ ε : Type} {unit : CompileUnit γ ε} {settings : Settings} {trie : Trie γ ε}
  {id : NodeId} {terminal : Terminal γ ε} {names : List String} {way : List (Command γ ε)}
  {rest : List Argument}

/-- Following some names from the root leads along a way of commands. The node of a command that is
compiled alone is the root, so its own name is not among them. -/
inductive Descends : CompileUnit γ ε → List String → List (Command γ ε) → Prop
  | alone {command : Command γ ε} {names : List String} {way : List (Command γ ε)}
      (descends : command.Descends names way) : Descends (.alone command) names way
  | together {commands : List (Command γ ε)} {command : Command γ ε} {name : String}
      {names : List String} {way : List (Command γ ε)} (sole : IsSoleBearer commands name command)
      (descends : command.Descends names way) : Descends (.together commands) (name :: names) way

/-- What is offered below a way carries the guards of the way. -/
theorem Descends.guardsAlong_prefix (descends : unit.Descends names way) {offer : Offer γ ε}
    (mem : offer ∈ unit.offers) (below : SamePath (names.map .literal ++ rest) offer.path) :
    guardsAlong way <+: offer.guards := by
  cases descends with
  | alone descends => exact descends.guardsAlong_prefix [] [] mem below
  | together sole descends =>
    have inside := sole.mem_offersAt [] [] mem below
    exact descends.guardsAlong_prefix [] _ inside below

/-- The guards on a way are gates of every terminal at or below its end. -/
theorem gatedBy_of_descends (compiled : (unit.compile settings).result = .ok trie)
    (descends : unit.Descends names way)
    (below : trie.lookup? (names.map .literal ++ rest) = some id)
    (stored : trie.terminal? id = some terminal) : terminal.GatedBy (guardsAlong way) := by
  -- The terminal is that of the offer that owns the path, and the offer carries the guards.
  obtain ⟨offer, -, owns, offered⟩ := exists_owner_of_terminal compiled stored
  obtain ⟨mem, here, -⟩ := mem_offersTo.mp (owner?_mem (owns _ below))
  obtain ⟨further, carried⟩ := descends.guardsAlong_prefix mem here
  obtain ⟨joined, -⟩ := Terminal.of?_eq_some_iff.mp offered
  rw [← carried] at joined
  exact (Terminal.enforces_of_joinAll joined).gatedBy

/-- The guard of a command is a gate of everything below it: of the whole trie if the command is
compiled alone, of the branch of a name that belongs to no other command if it is compiled together
with others; and for a subcommand at any depth, the guards of all commands on the way to it and its
own guard are gates, in this order, of everything at or below its node. -/
theorem gates_below (compiled : (unit.compile settings).result = .ok trie) :
    (∀ command gate, unit = alone command → command.guard = some gate →
      ∀ id terminal, trie.terminal? id = some terminal → terminal.GatedBy [gate]) ∧
    (∀ commands name command gate, unit = together commands → IsSoleBearer commands name command →
      command.guard = some gate → ∀ rest id terminal,
        trie.lookup? (.literal name :: rest) = some id → trie.terminal? id = some terminal →
          terminal.GatedBy [gate]) ∧
    ∀ names way, unit.Descends names way → ∀ rest id terminal,
      trie.lookup? (names.map .literal ++ rest) = some id → trie.terminal? id = some terminal →
        terminal.GatedBy (guardsAlong way) := by
  have onlyGuard {command : Command γ ε} {gate : Guard γ} (guarded : command.guard = some gate) :
      guardsAlong [command] = [gate] := by
    simp [guardsAlong, guarded]
  refine ⟨?_, ?_, ?_⟩
  · rintro command gate rfl guarded id terminal stored
    obtain ⟨path, leads⟩ :=
      (numbering_of_compile compiled).exists_lookup? (Trie.lt_size_of_terminal? stored)
    have descends : (alone command).Descends [] [command] := .alone (.here command)
    rw [← onlyGuard guarded]
    exact gatedBy_of_descends compiled descends leads stored
  · rintro commands name command gate rfl sole guarded rest id terminal below stored
    have descends : (together commands).Descends [name] [command] := .together sole (.here command)
    rw [← onlyGuard guarded]
    exact gatedBy_of_descends compiled descends below stored
  · intro names way descends rest id terminal below stored
    exact gatedBy_of_descends compiled descends below stored

/-- The alias `r` of the subcommand `reload` is no start of a usage, so whoever reloads one thing by
it has to pass the guard of `admin` and then that of `reload`. -/
theorem sample_gates : ∃ trie id terminal, (sample.compile {}).result = .ok trie ∧
    trie.lookup? [.literal "r", .typed "what" .word none] = some id ∧
    trie.terminal? id = some terminal ∧
    terminal.GatedBy [.single "staff", .single "owner"] := by
  obtain ⟨trie, compiled⟩ := (exists_compile_eq_ok_iff {} sample).mpr ⟨by decide, by decide⟩
  have held : (trie.terminalAt? [.literal "r", .typed "what" .word none]).isSome := by
    rw [terminalAt?_eq compiled]
    decide
  obtain ⟨terminal, atEnd⟩ := Option.isSome_iff_exists.mp held
  obtain ⟨id, found, stored⟩ := Option.bind_eq_some_iff.mp atEnd
  have descends : sample.Descends ["r"] _ :=
    .alone (.down ⟨[], _, rfl, by decide, by decide⟩ (by decide) (.here _))
  exact ⟨trie, id, terminal, compiled, found, stored,
    (gates_below compiled).2.2 ["r"] _ descends [.typed "what" .word none] id terminal found stored⟩

end Dispatch.CompileUnit
