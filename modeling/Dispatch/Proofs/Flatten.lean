import Dispatch.Proofs.Compile.Unit

/-!
# Commands without subcommands

A subcommand is a shorter way of writing usages. A command is flattened by putting usages in place of
its subcommands: one for the bare name, and one for everything that can be written behind it, the
name coming first and the guard of the subcommand being joined in front.

The flat command makes the same offers in the same order, except that who makes them and how their
guards are bracketed is lost. One difference would matter to a compilation: a subcommand with guards
and no executor only holds its place, while a usage with guards and no executor takes it.

## Main definitions

* `Command.flatten` — the command without subcommands
* `Command.NoHolderBelow` — no subcommand holds its place by guards alone
* `Offer.plain` — an offer without what does not show in a compiled trie

## Main results

* `Command.plain_offersAt_flatten` — the flat command makes the same offers
* `Command.offence?_flatten` — it is usable if the command is
-/

set_option autoImplicit false

namespace Dispatch

open Argument

variable {γ ε : Type}

/-- A usage of a subcommand as a usage of the command above: a name of the subcommand comes first, and
the guard of the subcommand is joined in front. -/
def Usage.under (name : String) (guard : Option (Guard γ)) (usage : Usage γ ε) : Usage γ ε where
  arguments := .literal name :: usage.arguments
  executor := usage.executor
  guard := Guard.join guard usage.guard

namespace Command

mutual

/-- The usages of a command, followed by those that stand for its subcommands. -/
def flatUsages : Command γ ε → List (Usage γ ε)
  | ⟨_, _, _, _, usages, subcommands⟩ => usages ++ flatUsagesOf subcommands

/-- The usages that stand for subcommands: for every name of each of them in order, a usage of the
bare name and then those of everything behind it. -/
def flatUsagesOf : List (Command γ ε) → List (Usage γ ε)
  | [] => []
  | command :: rest =>
    command.names.flatMap (fun name =>
        ⟨[.literal name], command.executor, command.guard⟩ ::
          command.flatUsages.map (Usage.under name command.guard)) ++
      flatUsagesOf rest

end

/-- The command with usages in place of its subcommands. -/
def flatten (command : Command γ ε) : Command γ ε :=
  { command with usages := command.flatUsages, subcommands := [] }

mutual

/-- No subcommand at any depth has guards and no executor: each of them has an executor, or neither it
nor any command that encloses it has a guard. -/
def NoHolderBelow (enclosing : List (Guard γ)) : Command γ ε → Prop
  | ⟨_, _, own, _, _, subcommands⟩ => NoHolderAmong (enclosing ++ own.toList) subcommands

/-- No command of a list has guards and no executor, and no subcommand of it at any depth. -/
def NoHolderAmong (enclosing : List (Guard γ)) : List (Command γ ε) → Prop
  | [] => True
  | command :: rest =>
    (command.executor.isSome ∨ enclosing ++ command.guard.toList = []) ∧
      command.NoHolderBelow enclosing ∧ NoHolderAmong enclosing rest

end

end Command

namespace Offer

/-- The offer as far as it shows in a compiled trie. It is left out who makes it and how its guards
are bracketed; of the own offers of commands, only placeholders are treated in a way of their own. -/
def plain (offer : Offer γ ε) : Offer γ ε where
  path := offer.path
  command := ""
  guards := (offer.guards.flatMap Guard.leaves).map .single
  executor := offer.executor
  isOwn := offer.isPlaceholder

/-- What a usage of a command at `base` offers, given all guards of the command. -/
def ofUsage (command : String) (guards : List (Guard γ)) (base : List Argument)
    (usage : Usage γ ε) : Offer γ ε :=
  ⟨base ++ usage.arguments, command, guards ++ usage.guard.toList, usage.executor, false⟩

variable {offer other : Offer γ ε}

theorem plain_eq_iff : offer.plain = other.plain ↔
    offer.path = other.path ∧
      offer.guards.flatMap Guard.leaves = other.guards.flatMap Guard.leaves ∧
      offer.executor = other.executor ∧ offer.isPlaceholder = other.isPlaceholder := by
  have singles : Function.Injective (Guard.single : γ → Guard γ) := fun _ _ => Guard.single.inj
  simp [plain, List.map_inj_right singles]

/-- Taking guards apart leaves none only where there are none. -/
theorem isEmpty_guards_plain (offer : Offer γ ε) :
    offer.plain.guards.isEmpty = offer.guards.isEmpty := by
  unfold plain
  cases offer.guards with
  | nil => rfl
  | cons guard guards => simp [Guard.leaves_ne_nil]

theorem isVoid_plain (offer : Offer γ ε) : offer.plain.isVoid = offer.isVoid := by
  rw [isVoid, isVoid, isEmpty_guards_plain]
  rfl

theorem isPlaceholder_plain (offer : Offer γ ε) : offer.plain.isPlaceholder = offer.isPlaceholder := by
  have kept : offer.plain.isPlaceholder =
      (offer.isPlaceholder && offer.executor.isNone && !offer.guards.isEmpty) := by
    rw [← isEmpty_guards_plain]
    rfl
  rw [kept, isPlaceholder]
  cases offer.isOwn <;> cases offer.executor.isNone <;> cases offer.guards.isEmpty <;> rfl

end Offer

namespace Command

variable {enclosing : List (Guard γ)} {base : List Argument}

/-! ### The offers of the flat command -/

theorem offersAt_eq (enclosing : List (Guard γ)) (base : List Argument) (command : Command γ ε) :
    command.offersAt enclosing base =
      ⟨base, command.name, enclosing ++ command.guard.toList, command.executor, true⟩ ::
        (command.usages.map (Offer.ofUsage command.name (enclosing ++ command.guard.toList) base) ++
          offersBelow (enclosing ++ command.guard.toList) base command.subcommands) := by
  obtain ⟨name, aliases, own, executor, usages, subcommands⟩ := command
  rw [offersAt]
  rfl

/-- A usage that stands for one of a subcommand offers the same as that one. -/
theorem plain_ofUsage_under (title command name : String) (guard : Option (Guard γ))
    (usage : Usage γ ε) :
    (Offer.ofUsage title enclosing base (usage.under name guard)).plain =
      (Offer.ofUsage command (enclosing ++ guard.toList) (base ++ [.literal name]) usage).plain := by
  rw [Offer.plain_eq_iff]
  refine ⟨?_, ?_, rfl, rfl⟩
  · simp [Offer.ofUsage, Usage.under]
  · -- The guards are joined in another order, but their leaves come in the same one.
    cases guard <;> cases outer : usage.guard <;>
      simp [Offer.ofUsage, Usage.under, outer, Guard.leaves]

mutual

/-- Below a name, a subcommand offers the same as the usages that stand for it. -/
theorem plain_offersAt (title : String) (enclosing : List (Guard γ)) (base : List Argument)
    (name : String) : ∀ command : Command γ ε,
      (command.executor.isSome ∨ enclosing ++ command.guard.toList = []) →
      command.NoHolderBelow enclosing →
        (command.offersAt enclosing (base ++ [.literal name])).map Offer.plain =
          ((⟨[.literal name], command.executor, command.guard⟩ ::
            command.flatUsages.map (Usage.under name command.guard)).map
              (Offer.ofUsage title enclosing base)).map Offer.plain
  | ⟨given, aliases, own, executor, usages, subcommands⟩, placed, below => by
    rw [NoHolderBelow] at below
    have rest := plain_offersBelow given (enclosing ++ own.toList) (base ++ [.literal name])
      subcommands below
    -- At the node of the name itself, the subcommand would differ only as a placeholder.
    have first : Offer.plain ⟨base ++ [.literal name], given, enclosing ++ own.toList, executor, true⟩ =
        (Offer.ofUsage title enclosing base ⟨[.literal name], executor, own⟩).plain := by
      refine Offer.plain_eq_iff.mpr ⟨rfl, rfl, rfl, ?_⟩
      rcases placed with runs | unguarded
      · simp [Offer.isPlaceholder, Offer.ofUsage, Option.isNone_eq_false_iff.mpr runs]
      · simp [Offer.isPlaceholder, Offer.ofUsage, unguarded]
    have behind : ((usages ++ flatUsagesOf subcommands).map (Offer.ofUsage given
          (enclosing ++ own.toList) (base ++ [.literal name]))).map Offer.plain =
        (((usages ++ flatUsagesOf subcommands).map (Usage.under name own)).map
          (Offer.ofUsage title enclosing base)).map Offer.plain := by
      simp only [List.map_map]
      refine List.map_congr_left fun usage _ => ?_
      exact (plain_ofUsage_under title given name own usage).symm
    rw [offersAt_eq, flatUsages, List.map_cons, List.map_append, rest, List.map_cons, List.map_cons,
      ← behind, ← first, List.map_append, List.map_append]

theorem plain_offersBelow (title : String) (enclosing : List (Guard γ)) (base : List Argument) :
    ∀ commands : List (Command γ ε), NoHolderAmong enclosing commands →
      (offersBelow enclosing base commands).map Offer.plain =
        ((flatUsagesOf commands).map (Offer.ofUsage title enclosing base)).map Offer.plain
  | [], _ => rfl
  | command :: rest, placed => by
    rw [NoHolderAmong] at placed
    obtain ⟨first, below, others⟩ := placed
    rw [offersBelow, flatUsagesOf, List.map_append, List.map_append, List.map_append,
      plain_offersBelow title enclosing base rest others, List.map_flatMap, List.map_flatMap,
      List.map_flatMap]
    congr 1
    refine List.flatMap_congr fun name _ => ?_
    exact plain_offersAt title enclosing base name command first below

end

/-- The flat command makes the same offers in the same order. -/
theorem plain_offersAt_flatten (command : Command γ ε)
    (placed : command.NoHolderBelow enclosing) :
    (command.flatten.offersAt enclosing base).map Offer.plain =
      (command.offersAt enclosing base).map Offer.plain := by
  obtain ⟨name, aliases, own, executor, usages, subcommands⟩ := command
  rw [NoHolderBelow] at placed
  have below := plain_offersBelow name (enclosing ++ own.toList) base subcommands placed
  rw [offersAt_eq, offersAt_eq, flatten, flatUsages, offersBelow, List.append_nil, List.map_append,
    List.map_cons, List.map_cons, List.map_append, List.map_append, below]

/-! ### The flat command is usable -/

/-- A usage that stands for a subcommand has at least a name as its argument. -/
theorem arguments_ne_nil_of_mem_flatUsagesOf {commands : List (Command γ ε)} {usage : Usage γ ε}
    (mem : usage ∈ flatUsagesOf commands) : usage.arguments ≠ [] := by
  induction commands with
  | nil => simp [flatUsagesOf] at mem
  | cons command rest ih =>
    rw [flatUsagesOf, List.mem_append, List.mem_flatMap] at mem
    rcases mem with ⟨name, -, mem⟩ | mem
    · rcases List.mem_cons.mp mem with rfl | mem
      · simp
      · obtain ⟨inner, -, rfl⟩ := List.mem_map.mp mem
        simp [Usage.under]
    · exact ih mem

theorem offence?_flatten {command : Command γ ε} (sound : command.offence? = none) :
    command.flatten.offence? = none := by
  obtain ⟨named, filled, -⟩ := offence?_eq_none_iff.mp sound
  have bare : ∀ child ∈ command.flatten.subcommands, child.offence? = none := by
    intro child mem
    exact absurd mem List.not_mem_nil
  refine offence?_eq_none_iff.mpr ⟨named, ?_, bare⟩
  intro usage mem
  obtain ⟨name, aliases, own, executor, usages, subcommands⟩ := command
  rw [flatten, flatUsages, List.mem_append] at mem
  rcases mem with mem | mem
  · exact filled usage mem
  · exact arguments_ne_nil_of_mem_flatUsagesOf mem

end Command

end Dispatch
