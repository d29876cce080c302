import Dispatch.Proofs.Bearing
import Dispatch.Proofs.Flatten
import Mathlib.Data.List.Sort

/-!
# Rearranged commands

The order in which usages and subcommands are registered matters only where two of them clash: usages
that end at the same node, and commands that share a name. A command tree is rearranged by changing the
order of its usages or of its subcommands, at any depth, while those that clash follow one another as
before.

Rearranged commands make the same offers. They make them in another order, but not so at any one path:
whatever is offered at the same path clashes.

## Main definitions

* `Reordered` — a list in another order, elements that clash following one another as before
* `Usage.Clash`, `Command.Clash` — usages and commands whose order matters
* `Command.Rearranged` — a command tree whose order was changed at one place

## Main results

* `Reordered.filter_eq`, `Reordered.flatMap_eq` — what clashes comes in the same order
* `Command.Rearranged.mem_offersAt_iff` — rearranged commands make the same offers
* `Command.Rearranged.offersTo_offersAt` — and at each path they make them in the same order
-/

set_option autoImplicit false

namespace Dispatch

open Argument

variable {α β γ ε : Type}

/-! ### Lists in another order -/

/-- The elements of a list in another order, in which those that clash follow one another as before. -/
def Reordered (clash : α → α → Prop) (items others : List α) : Prop :=
  ∃ place : Fin items.length ≃ Fin others.length,
    (∀ i, others[place i] = items[i]) ∧
      ∀ i j, i < j → clash items[i] items[j] → place i < place j

namespace Reordered

variable {clash : α → α → Prop} {items others : List α}

theorem mem_iff (order : Reordered clash items others) {item : α} : item ∈ items ↔ item ∈ others := by
  obtain ⟨place, same, -⟩ := order
  constructor
  · intro mem
    obtain ⟨i, inside, rfl⟩ := List.mem_iff_getElem.mp mem
    have moved : others[place ⟨i, inside⟩] = items[i] := same ⟨i, inside⟩
    exact moved ▸ List.getElem_mem _
  · intro mem
    obtain ⟨i, inside, rfl⟩ := List.mem_iff_getElem.mp mem
    -- Every slot is the place of an element that stood somewhere before.
    have taken : ∀ slot : Fin others.length, others[slot] ∈ items := by
      intro slot
      obtain ⟨j, rfl⟩ := place.surjective slot
      rw [same]
      exact List.getElem_mem _
    exact taken ⟨i, inside⟩

/-- What is kept of a list stands at the slots of what is kept. -/
private theorem filter_eq_map_slots (items : List α) (kept : α → Bool) :
    items.filter kept =
      ((List.finRange items.length).filter fun i => kept items[i]).map fun i => items[i] := by
  conv_lhs => rw [← List.map_get_finRange items, List.filter_map]
  rfl

/-- Elements that all clash with each other come in the same order. -/
theorem filter_eq (order : Reordered clash items others) {kept : α → Bool}
    (all : ∀ a b, kept a → kept b → clash a b) : items.filter kept = others.filter kept := by
  obtain ⟨place, same, follow⟩ := order
  -- The slots of what is kept move to the slots of what is kept, and stay in ascending order.
  have slots : ((List.finRange items.length).filter fun i => kept items[i]).map place =
      (List.finRange others.length).filter fun i => kept others[i] := by
    have ascending : (((List.finRange items.length).filter fun i => kept items[i]).map place).Pairwise
        (· < ·) := by
      apply List.pairwise_map.mpr
      refine ((List.pairwise_lt_finRange _).filter _).imp_of_mem fun {i j} memI memJ less => ?_
      exact follow i j less (all _ _ (List.mem_filter.mp memI).2 (List.mem_filter.mp memJ).2)
    refine ascending.eq_of_mem_iff ((List.pairwise_lt_finRange _).filter _) fun slot => ?_
    simp only [List.mem_map, List.mem_filter, List.mem_finRange, true_and]
    constructor
    · rintro ⟨i, held, rfl⟩
      rwa [same]
    · intro held
      obtain ⟨i, rfl⟩ := place.surjective slot
      rw [same] at held
      exact ⟨i, held, rfl⟩
  rw [filter_eq_map_slots items, filter_eq_map_slots others, ← slots, List.map_map]
  exact List.map_congr_left fun i _ => (same i).symm

/-- What elements contribute comes in the same order if those that contribute anything clash. -/
theorem flatMap_eq (order : Reordered clash items others) {f : α → List β}
    (all : ∀ a b, f a ≠ [] → f b ≠ [] → clash a b) : items.flatMap f = others.flatMap f := by
  have relevant (items : List α) :
      items.flatMap f = (items.filter fun item => !(f item).isEmpty).flatMap f := by
    induction items with
    | nil => rfl
    | cons item items ih => cases empty : f item <;> simp [empty, ih]
  have same : (items.filter fun item => !(f item).isEmpty) =
      others.filter fun item => !(f item).isEmpty := by
    apply order.filter_eq
    intro a b
    simpa using all a b
  rw [relevant items, same, ← relevant]

/-- Two elements that do not clash may change places. -/
theorem pair {a b : α} (apart : ¬ clash a b) : Reordered clash [a, b] [b, a] := by
  -- There is only one pair of slots in ascending order.
  have ascending : ∀ i j : Fin 2, i < j → i = 0 ∧ j = 1 := by decide
  refine ⟨Equiv.swap 0 1, Fin.forall_fin_two.mpr ⟨rfl, rfl⟩, ?_⟩
  intro i j less clashes
  obtain ⟨rfl, rfl⟩ := ascending i j less
  exact absurd clashes apart

end Reordered

/-! ### Command trees in another order -/

/-- Usages that end at the same node. -/
def Usage.Clash (usage other : Usage γ ε) : Prop := SamePath usage.arguments other.arguments

namespace Command

/-- Commands that share a name. -/
def Clash (command other : Command γ ε) : Prop := ∃ name ∈ command.names, name ∈ other.names

/-- A command tree whose order was changed at one place, among the usages or among the subcommands of
the command or of one below it. -/
inductive Rearranged : Command γ ε → Command γ ε → Prop
  | usages {command : Command γ ε} {usages : List (Usage γ ε)}
      (order : Reordered Usage.Clash command.usages usages) :
      Rearranged command { command with usages := usages }
  | subcommands {command : Command γ ε} {subcommands : List (Command γ ε)}
      (order : Reordered Clash command.subcommands subcommands) :
      Rearranged command { command with subcommands := subcommands }
  | within {command inner other : Command γ ε} {before after : List (Command γ ε)}
      (placed : command.subcommands = before ++ inner :: after) (step : Rearranged inner other) :
      Rearranged command { command with subcommands := before ++ other :: after }

variable {command other inner : Command γ ε} {commands others before after : List (Command γ ε)}
  {enclosing : List (Guard γ)} {base path : List Argument} {offer : Offer γ ε}

namespace Rearranged

theorem names_eq (step : Rearranged command other) : command.names = other.names := by
  cases step <;> rfl

/-- Whether a command is usable does not depend on the order. -/
theorem offence?_eq_none_iff (step : Rearranged command other) :
    command.offence? = none ↔ other.offence? = none := by
  induction step with
  | usages order =>
    rw [Command.offence?_eq_none_iff, Command.offence?_eq_none_iff]
    simp only [order.mem_iff]
  | subcommands order =>
    rw [Command.offence?_eq_none_iff, Command.offence?_eq_none_iff]
    simp only [order.mem_iff]
  | within placed _ ih =>
    rw [Command.offence?_eq_none_iff, Command.offence?_eq_none_iff, placed]
    simp only [List.forall_mem_append, List.forall_mem_cons, ih]

end Rearranged

/-! ### What rearranged commands offer -/

theorem mem_offersBelow_reordered (order : Reordered Clash commands others) :
    offer ∈ offersBelow enclosing base commands ↔ offer ∈ offersBelow enclosing base others := by
  rw [mem_offersBelow, mem_offersBelow]
  simp only [order.mem_iff]

/-- Commands side by side offer at a path what each of them offers there under its names. -/
theorem offersTo_offersBelow (enclosing : List (Guard γ)) (base path : List Argument)
    (commands : List (Command γ ε)) :
    offersTo path (offersBelow enclosing base commands) =
      commands.flatMap fun command => command.names.flatMap fun name =>
        offersTo path (command.offersAt enclosing (base ++ [.literal name])) := by
  rw [offersBelow_eq_flatMap, bearings, offersTo, List.filter_flatMap, List.flatMap_assoc]
  refine List.flatMap_congr fun command _ => ?_
  rw [List.flatMap_map]
  rfl

/-- Whoever offers something at a path has a name that stands in the path. -/
theorem exists_name_of_offersTo_ne_nil
    (offered : (command.names.flatMap fun name =>
      offersTo path (command.offersAt enclosing (base ++ [.literal name]))) ≠ []) :
    ∃ name ∈ command.names, path[base.length]?.map position = some (.keyword name) := by
  obtain ⟨offer, mem⟩ := List.exists_mem_of_ne_nil _ offered
  obtain ⟨name, named, mem⟩ := List.mem_flatMap.mp mem
  obtain ⟨mem, same, -⟩ := mem_offersTo.mp mem
  refine ⟨name, named, ?_⟩
  -- The path of the offer goes through the node of the name, and so does any path like it.
  obtain ⟨rest, whole⟩ := prefix_of_mem_offersAt mem
  rw [samePath_iff, ← whole] at same
  rw [← List.getElem?_map, same]
  simp [position]

/-- At each path, commands in another order make their offers in the same order. -/
theorem offersTo_offersBelow_reordered (order : Reordered Clash commands others) :
    offersTo path (offersBelow enclosing base commands) =
      offersTo path (offersBelow enclosing base others) := by
  rw [offersTo_offersBelow, offersTo_offersBelow]
  apply order.flatMap_eq
  intro command other offered offered'
  obtain ⟨name, named, here⟩ := exists_name_of_offersTo_ne_nil offered
  obtain ⟨name', named', here'⟩ := exists_name_of_offersTo_ne_nil offered'
  obtain rfl : name = name' := by simpa [here] using here'
  exact ⟨name, named, named'⟩

/-- At each path, the usages of a command in another order make their offers in the same order. -/
theorem offersTo_usages_reordered {usages more : List (Usage γ ε)} {name : String}
    {guards : List (Guard γ)} (order : Reordered Usage.Clash usages more) :
    offersTo path (usages.map (Offer.ofUsage name guards base)) =
      offersTo path (more.map (Offer.ofUsage name guards base)) := by
  rw [offersTo, offersTo, List.filter_map, List.filter_map]
  refine congrArg (List.map _) (order.filter_eq fun usage other held held' => ?_)
  -- Both end at the path, so they end at the same node.
  have here : SamePath path (base ++ usage.arguments) :=
    of_decide_eq_true (Bool.and_eq_true_iff.mp held).1
  have here' : SamePath path (base ++ other.arguments) :=
    of_decide_eq_true (Bool.and_eq_true_iff.mp held').1
  exact samePath_append_left_iff.mp (here.symm.trans here')

/-- What a command offers at a path comes from itself, its usages and its subcommands in turn. -/
theorem offersTo_cons_append {usages more below others : List (Offer γ ε)}
    (atUsages : offersTo path usages = offersTo path more)
    (atSubcommands : offersTo path below = offersTo path others) :
    offersTo path (offer :: (usages ++ below)) = offersTo path (offer :: (more ++ others)) := by
  unfold offersTo at atUsages atSubcommands ⊢
  rw [List.filter_cons, List.filter_cons, List.filter_append, List.filter_append, atUsages,
    atSubcommands]

namespace Rearranged

/-- Rearranged commands make the same offers. -/
theorem mem_offersAt_iff (step : Rearranged command other) :
    offer ∈ command.offersAt enclosing base ↔ offer ∈ other.offersAt enclosing base := by
  induction step generalizing enclosing base with
  | usages order =>
    rw [offersAt_eq, offersAt_eq]
    simp only [List.mem_cons, List.mem_append, List.mem_map, order.mem_iff]
  | subcommands order =>
    rw [offersAt_eq, offersAt_eq]
    simp only [List.mem_cons, List.mem_append, mem_offersBelow_reordered order]
  | within placed step ih =>
    rw [offersAt_eq, offersAt_eq, placed]
    simp only [List.mem_cons, List.mem_append, mem_offersBelow, step.names_eq, ih,
      or_and_right, exists_or, exists_eq_left]

/-- At each path, rearranged commands make their offers in the same order. -/
theorem offersTo_offersAt (step : Rearranged command other) :
    offersTo path (command.offersAt enclosing base) = offersTo path (other.offersAt enclosing base) := by
  induction step generalizing enclosing base with
  | usages order =>
    rw [offersAt_eq, offersAt_eq]
    exact offersTo_cons_append (offersTo_usages_reordered order) rfl
  | subcommands order =>
    rw [offersAt_eq, offersAt_eq]
    exact offersTo_cons_append rfl (offersTo_offersBelow_reordered order)
  | within placed step ih =>
    rw [offersAt_eq, offersAt_eq, placed]
    refine offersTo_cons_append rfl ?_
    -- The command that changed has kept its names, and below each of them it offers the same.
    simp only [offersTo_offersBelow, List.flatMap_append, List.flatMap_cons, step.names_eq, ih]

end Rearranged

end Command

end Dispatch
