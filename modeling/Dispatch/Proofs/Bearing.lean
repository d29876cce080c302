import Dispatch.Proofs.Descent

/-!
# Commands side by side

Commands that are placed side by side make their offers one after the other, each of them once for
every name that it bears. Below a name with a sole bearer stand the offers that the bearer makes by
itself, prolonged by the name, and no others; if it bears the name several times, then it makes them
several times, which does not matter for their owner.

## Main definitions

* `Command.bearings` — commands with each of their names
* `Offer.below` — an offer that is made further down

## Main results

* `Command.offersBelow_eq_flatMap` — the offers of several commands by bearings
* `Command.offersAt_append` — what a command offers does not depend on where it is placed
* `Command.IsSoleBearer.owner?_eq` — below a sole name, a path is owned as below its bearer alone
-/

set_option autoImplicit false

namespace Dispatch

open Argument

variable {γ ε : Type}

/-- The same offer, made further down. -/
def Offer.below (base : List Argument) (offer : Offer γ ε) : Offer γ ε :=
  { offer with path := base ++ offer.path }

namespace Command

variable {command : Command γ ε} {commands : List (Command γ ε)} {bearing : Command γ ε × String}
  {enclosing : List (Guard γ)} {base more : List Argument} {name : String} {precedence : Precedence}

/-! ### Bearings -/

/-- Commands with each of their names, in order. -/
def bearings (commands : List (Command γ ε)) : List (Command γ ε × String) :=
  commands.flatMap fun command => command.names.map fun name => (command, name)

theorem mem_bearings :
    bearing ∈ bearings commands ↔ bearing.1 ∈ commands ∧ bearing.2 ∈ bearing.1.names := by
  obtain ⟨command, name⟩ := bearing
  simp [bearings]

/-- Commands side by side make the offers of one bearing after the other. -/
theorem offersBelow_eq_flatMap (enclosing : List (Guard γ)) (base : List Argument)
    (commands : List (Command γ ε)) :
    offersBelow enclosing base commands =
      (bearings commands).flatMap fun bearing =>
        bearing.1.offersAt enclosing (base ++ [.literal bearing.2]) := by
  induction commands with
  | nil => rfl
  | cons command rest ih =>
    have first : bearings (command :: rest) =
        (command.names.map fun name => (command, name)) ++ bearings rest := List.flatMap_cons
    rw [offersBelow, ih, first, List.flatMap_append, List.flatMap_map]

theorem IsSoleBearer.mem_bearings (sole : IsSoleBearer commands name command) :
    (command, name) ∈ bearings commands := by
  obtain ⟨before, after, rfl, named, -⟩ := sole
  exact Command.mem_bearings.mpr ⟨by simp, named⟩

theorem IsSoleBearer.eq_of_mem_bearings (sole : IsSoleBearer commands name command)
    (mem : bearing ∈ bearings commands) (same : bearing.2 = name) : bearing = (command, name) := by
  obtain ⟨isCommand, named⟩ := Command.mem_bearings.mp mem
  exact Prod.ext (sole.eq_of_mem isCommand (same ▸ named)) same

/-- Of the bearings of a sole name there is a first one. -/
theorem IsSoleBearer.exists_bearings_eq (sole : IsSoleBearer commands name command) :
    ∃ before after, bearings commands = before ++ (command, name) :: after ∧
      ∀ bearing ∈ before, bearing.2 ≠ name := by
  obtain ⟨before, after, split, first⟩ := List.eq_append_cons_of_mem sole.mem_bearings
  refine ⟨before, after, split, fun bearing mem same => first ?_⟩
  have isBearing : bearing ∈ bearings commands := by
    rw [split]
    exact List.mem_append_left _ mem
  exact sole.eq_of_mem_bearings isBearing same ▸ mem

/-! ### Placing a command elsewhere -/

mutual

/-- A command offers the same wherever it is placed. -/
theorem offersAt_append (enclosing : List (Guard γ)) (base more : List Argument) :
    ∀ command : Command γ ε, command.offersAt enclosing (base ++ more) =
      (command.offersAt enclosing more).map (Offer.below base)
  | ⟨name, aliases, own, executor, usages, subcommands⟩ => by
    rw [offersAt, offersAt, offersBelow_append (enclosing ++ own.toList) base more subcommands,
      List.map_cons, List.map_append, List.map_map]
    simp [Offer.below, Function.comp_def]

theorem offersBelow_append (enclosing : List (Guard γ)) (base more : List Argument) :
    ∀ commands : List (Command γ ε), offersBelow enclosing (base ++ more) commands =
      (offersBelow enclosing more commands).map (Offer.below base)
  | [] => rfl
  | command :: rest => by
    rw [offersBelow, offersBelow, List.map_append, List.map_flatMap,
      offersBelow_append enclosing base more rest]
    congr 1
    refine List.flatMap_congr fun name _ => ?_
    rw [List.append_assoc]
    exact offersAt_append enclosing base (more ++ [.literal name]) command

end

theorem offersAt_eq_map_below (enclosing : List (Guard γ)) (base : List Argument)
    (command : Command γ ε) :
    command.offersAt enclosing base = (command.offersAt enclosing []).map (Offer.below base) := by
  rw [← offersAt_append, List.append_nil]

/-- Below another name nothing is offered for a path. -/
theorem offersTo_offersAt_eq_nil {other : String} (differ : other ≠ name) (rest : List Argument) :
    offersTo (.literal name :: rest) (command.offersAt enclosing [.literal other]) = [] := by
  rw [List.eq_nil_iff_forall_not_mem]
  intro offer mem
  obtain ⟨mem, same, -⟩ := mem_offersTo.mp mem
  obtain ⟨tail, path, -⟩ := exists_eq_literal_cons same
  have starts := prefix_of_mem_offersAt mem
  rw [path, List.cons_prefix_cons] at starts
  exact differ (by simpa using starts.1)

/-- Below a name with a sole bearer, a path has the owner that it has when the bearer is alone. -/
theorem IsSoleBearer.owner?_eq (sole : IsSoleBearer commands name command)
    (enclosing : List (Guard γ)) (rest : List Argument) :
    owner? precedence (.literal name :: rest) (offersBelow enclosing [] commands) =
      (owner? precedence rest (command.offersAt enclosing [])).map (Offer.below [.literal name]) := by
  have repeated : owner? precedence (.literal name :: rest) (offersBelow enclosing [] commands) =
      owner? precedence (.literal name :: rest) (command.offersAt enclosing [.literal name]) := by
    rw [offersBelow_eq_flatMap]
    refine owner?_flatMap ?_ ⟨(command, name), sole.mem_bearings, rfl⟩
    -- Each time the name is borne, the same offers are made; under other names none are for the path.
    intro bearing mem
    by_cases same : bearing.2 = name
    · obtain rfl := sole.eq_of_mem_bearings mem same
      exact Or.inl rfl
    · exact Or.inr (offersTo_offersAt_eq_nil same rest)
  rw [repeated, offersAt_eq_map_below]
  refine owner?_map ?_ (fun _ => rfl) fun _ => rfl
  intro offer _
  exact samePath_cons_iff.trans (and_iff_right (SamePosition.refl _))

end Command

end Dispatch
