import Dispatch.Proofs.Offer

/-!
# Ways down a command tree

A name is a sole name if only one of the commands that stand side by side bears it. Whoever follows
sole names down a command tree, past usages that start otherwise, passes a chain of commands, and
everything that is offered below the end of this way carries the guards of all of them.

## Main definitions

* `Command.IsSoleBearer` — of several commands only one has a name
* `Command.Descends` — the commands on the way along some names
* `Command.guardsAlong` — the guards of the commands on a way, the outermost first

## Main results

* `Command.mem_offersBelow` — where the offers of several commands come from
* `Command.IsSoleBearer.mem_offersAt` — below a sole name only its bearer makes offers
* `Command.Descends.guardsAlong_prefix` — an offer below a way carries its guards first
-/

set_option autoImplicit false

namespace Dispatch

open Argument

variable {γ ε : Type}

namespace Command

variable {command child : Command γ ε} {commands : List (Command γ ε)} {offer : Offer γ ε}
  {enclosing : List (Guard γ)} {base : List Argument} {name : String} {names : List String}
  {way : List (Command γ ε)}

/-! ### Where offers come from -/

theorem mem_offersBelow : offer ∈ offersBelow enclosing base commands ↔
    ∃ command ∈ commands, ∃ name ∈ command.names,
      offer ∈ command.offersAt enclosing (base ++ [.literal name]) := by
  induction commands with
  | nil => simp [offersBelow]
  | cons command rest ih => simp [offersBelow, ih]

theorem prefix_of_mem_offersAt (mem : offer ∈ command.offersAt enclosing base) :
    base <+: offer.path := by
  have path : offer.path ∈ base :: command.visitedAt base :=
    path_offersAt enclosing base command ▸ List.mem_map_of_mem mem
  rcases List.mem_cons.mp path with same | named
  · exact same ▸ List.prefix_rfl
  · exact prefix_of_mem_visitedAt base command named

mutual

/-- Everything that a command offers carries the enclosing guards first, and then its own. -/
theorem guards_prefix_of_mem_offersAt (enclosing : List (Guard γ)) (base : List Argument) :
    ∀ (command : Command γ ε) {offer : Offer γ ε}, offer ∈ command.offersAt enclosing base →
      enclosing ++ command.guard.toList <+: offer.guards
  | ⟨name, aliases, own, executor, usages, subcommands⟩, offer, mem => by
    rw [offersAt, List.mem_cons, List.mem_append, List.mem_map] at mem
    rcases mem with rfl | ⟨usage, -, rfl⟩ | below
    · exact List.prefix_rfl
    · exact List.prefix_append _ _
    · exact guards_prefix_of_mem_offersBelow (enclosing ++ own.toList) base subcommands below

theorem guards_prefix_of_mem_offersBelow (enclosing : List (Guard γ)) (base : List Argument) :
    ∀ (commands : List (Command γ ε)) {offer : Offer γ ε},
      offer ∈ offersBelow enclosing base commands → enclosing <+: offer.guards
  | [], offer, mem => by simp [offersBelow] at mem
  | command :: rest, offer, mem => by
    rw [offersBelow, List.mem_append, List.mem_flatMap] at mem
    rcases mem with ⟨name, -, mem⟩ | mem
    · exact (List.prefix_append _ _).trans
        (guards_prefix_of_mem_offersAt enclosing (base ++ [.literal name]) command mem)
    · exact guards_prefix_of_mem_offersBelow enclosing base rest mem

end

/-! ### Sole names -/

/-- At one place in a list stands a command that has a name, and no other command of the list has
it. -/
def IsSoleBearer (commands : List (Command γ ε)) (name : String) (command : Command γ ε) : Prop :=
  ∃ before after, commands = before ++ command :: after ∧ name ∈ command.names ∧
    ∀ other ∈ before ++ after, name ∉ other.names

theorem IsSoleBearer.eq_of_mem (sole : IsSoleBearer commands name command)
    {other : Command γ ε} (mem : other ∈ commands) (named : name ∈ other.names) :
    other = command := by
  obtain ⟨before, after, rfl, -, unnamed⟩ := sole
  rcases List.mem_append.mp mem with left | right
  · exact absurd named (unnamed other (List.mem_append_left _ left))
  · rcases List.mem_cons.mp right with same | right
    · exact same
    · exact absurd named (unnamed other (List.mem_append_right _ right))

/-- Of several commands only the sole bearer of a name offers something below it. -/
theorem IsSoleBearer.mem_offersAt (sole : IsSoleBearer commands name command)
    (enclosing : List (Guard γ)) (base : List Argument)
    (mem : offer ∈ offersBelow enclosing base commands) {rest : List Argument}
    (below : SamePath (base ++ .literal name :: rest) offer.path) :
    offer ∈ command.offersAt enclosing (base ++ [.literal name]) := by
  obtain ⟨other, isOther, given, named, mem⟩ := mem_offersBelow.mp mem
  -- The path of the offer decides which name it was made under.
  obtain ⟨tail, whole⟩ := prefix_of_mem_offersAt mem
  rw [← whole, List.append_assoc, samePath_append_left_iff] at below
  obtain ⟨tail', same, -⟩ := exists_eq_literal_cons below
  obtain rfl : given = name := by simpa using (List.cons.inj same).1
  obtain rfl := sole.eq_of_mem isOther named
  exact mem

/-! ### Following names -/

/-- Following some names down from a command, each of them the name of one subcommand only and the
start of no usage, leads along a way of commands. The way starts with the command itself. -/
inductive Descends : Command γ ε → List String → List (Command γ ε) → Prop
  | here (command : Command γ ε) : Descends command [] [command]
  | down {command child : Command γ ε} {name : String} {names : List String}
      {way : List (Command γ ε)} (sole : IsSoleBearer command.subcommands name child)
      (free : ∀ usage ∈ command.usages, ¬ [.literal name] <+: usage.arguments)
      (descends : Descends child names way) : Descends command (name :: names) (command :: way)

/-- The guards of the commands on a way, in order. -/
def guardsAlong (way : List (Command γ ε)) : List (Guard γ) :=
  way.flatMap fun command => command.guard.toList

/-- What a command offers below a way that leads down from it carries the guards of the way. -/
theorem Descends.guardsAlong_prefix (descends : Descends command names way)
    (enclosing : List (Guard γ)) (base : List Argument)
    (mem : offer ∈ command.offersAt enclosing base) {rest : List Argument}
    (below : SamePath (base ++ (names.map .literal ++ rest)) offer.path) :
    enclosing ++ guardsAlong way <+: offer.guards := by
  induction descends generalizing enclosing base with
  | here command =>
    simpa [guardsAlong] using guards_prefix_of_mem_offersAt enclosing base command mem
  | @down command child name names way sole free _ ih =>
    obtain ⟨title, aliases, own, executor, usages, subcommands⟩ := command
    rw [offersAt, List.mem_cons, List.mem_append, List.mem_map] at mem
    rcases mem with rfl | ⟨usage, isUsage, rfl⟩ | mem
    · -- The own node of the command lies above the first name.
      have := below.length_eq
      simp at this
    · -- A usage at or below the first name would start with it.
      rw [samePath_append_left_iff] at below
      obtain ⟨tail, starts, -⟩ := exists_eq_literal_cons below
      exact absurd ⟨tail, starts.symm⟩ (free usage isUsage)
    · have inside := sole.mem_offersAt _ base mem below
      have more := ih _ _ inside (by simpa using below)
      simpa [guardsAlong] using more

end Command

end Dispatch
