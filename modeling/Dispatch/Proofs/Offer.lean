import Dispatch.Proofs.Extraction
import Dispatch.Proofs.Guard.Chain
import Dispatch.Proofs.Path
import Dispatch.Trie.Compile

/-!
# What commands offer

A command tree makes offers: a command offers its guards and its executor at its own node, a usage
offers those of its own at the end of its arguments. An offer names all guards on the way to it, those
of the enclosing commands first. A registration is an offer whose guards were joined.

Of the offers at one path a single one owns the node. An offer without guard and executor is void. A
command that has guards but no executor only holds the place until something else is offered.

## Main definitions

* `Offer`, `Offer.isVoid`, `Offer.isPlaceholder` — what a command tree offers at a path
* `Command.offersAt`, `Command.offersBelow` — the offers of a command, of commands below a node
* `Command.visitedAt`, `Command.visitedBelow` — the paths that a command tree names
* `owner?` — the offer that owns the node at the end of a path

## Main results

* `Command.registrationsAt_eq`, `Command.branches_eq` — registrations are offers with joined guards
* `Command.path_offersAt`, `Command.path_offersBelow` — offers stand at the paths that are named
* `owner?_concat` — what a further offer does to the ownership
-/

set_option autoImplicit false

namespace Dispatch

open Argument

variable {γ ε : Type}

/-- What a command tree offers at a path. -/
structure Offer (γ ε : Type) where
  path : List Argument
  /-- the name of the command that makes the offer -/
  command : String
  /-- all guards on the way, those of the enclosing commands first -/
  guards : List (Guard γ)
  executor : Option ε
  /-- whether a command makes it for its own node, and not for a usage -/
  isOwn : Bool

namespace Offer

/-- There is neither a guard nor an executor. -/
def isVoid (offer : Offer γ ε) : Bool := offer.guards.isEmpty && offer.executor.isNone

/-- Only guards are offered, by a command for its own node. -/
def isPlaceholder (offer : Offer γ ε) : Bool :=
  offer.isOwn && offer.executor.isNone && !offer.guards.isEmpty

/-- The terminal that is offered. -/
def terminal? (offer : Offer γ ε) : Option (Terminal γ ε) :=
  Terminal.of? (Guard.joinAll offer.guards) offer.executor

/-- The offer as a compilation sees it. -/
def registration (offer : Offer γ ε) : Registration γ ε :=
  { path := offer.path
    command := offer.command
    entry := offer.terminal?.map
      (if offer.isOwn && offer.executor.isNone then Entry.placeholder else Entry.terminal) }

theorem terminal?_eq_none_iff {offer : Offer γ ε} :
    offer.terminal? = none ↔ offer.isVoid = true := by
  simp [terminal?, Terminal.of?_eq_none_iff, Guard.joinAll_eq_none_iff, isVoid]

theorem isSome_terminal?_iff {offer : Offer γ ε} :
    offer.terminal?.isSome ↔ offer.isVoid = false := by
  rw [← Bool.not_eq_true, ← terminal?_eq_none_iff, Option.isSome_iff_ne_none]

theorem isPlaceholder_eq {offer : Offer γ ε} (proper : offer.isVoid = false) :
    offer.isPlaceholder = (offer.isOwn && offer.executor.isNone) := by
  unfold isVoid at proper
  unfold isPlaceholder
  cases absent : offer.executor.isNone <;> simp_all

end Offer

namespace Command

/-! ### Offers and named paths of a command tree -/

mutual

/-- The offers of a command at `base`, given the guards that enclose it. -/
def offersAt (enclosing : List (Guard γ)) (base : List Argument) :
    Command γ ε → List (Offer γ ε)
  | ⟨name, _, own, executor, usages, subcommands⟩ =>
    let guards := enclosing ++ own.toList
    ⟨base, name, guards, executor, true⟩ ::
      (usages.map (fun usage =>
          ⟨base ++ usage.arguments, name, guards ++ usage.guard.toList, usage.executor, false⟩) ++
        offersBelow guards base subcommands)

/-- The offers of commands below `base`, each command at every one of its names. -/
def offersBelow (enclosing : List (Guard γ)) (base : List Argument) :
    List (Command γ ε) → List (Offer γ ε)
  | [] => []
  | command :: rest =>
    command.names.flatMap (fun name => command.offersAt enclosing (base ++ [.literal name])) ++
      offersBelow enclosing base rest

end

mutual

/-- The paths that a command at `base` names: those of its usages, and those of its subcommands. -/
def visitedAt (base : List Argument) : Command γ ε → List (List Argument)
  | ⟨_, _, _, _, usages, subcommands⟩ =>
    usages.map (fun usage => base ++ usage.arguments) ++ visitedBelow base subcommands

/-- The paths that commands below `base` name: for every name the literal, and what the command
names below it. -/
def visitedBelow (base : List Argument) : List (Command γ ε) → List (List Argument)
  | [] => []
  | command :: rest =>
    command.names.flatMap (fun name =>
        (base ++ [.literal name]) :: command.visitedAt (base ++ [.literal name])) ++
      visitedBelow base rest

end

mutual

/-- Registrations are offers with joined guards. -/
theorem registrationsAt_eq (enclosing : List (Guard γ)) (base : List Argument) :
    ∀ command : Command γ ε, command.registrationsAt (Guard.joinAll enclosing) base =
      (command.offersAt enclosing base).map Offer.registration
  | ⟨name, aliases, own, executor, usages, subcommands⟩ => by
    have below := branches_eq (enclosing ++ own.toList) base subcommands
    rw [Guard.joinAll_append_toList] at below
    rw [registrationsAt_mk, offersAt, List.map_cons, List.map_append, List.map_map, ← below]
    congr 1
    · simp only [Offer.registration, Offer.terminal?, Guard.joinAll_append_toList,
        CommandTable.ownEntry]
      cases executor <;> rfl
    · congr 1
      refine List.map_congr_left fun usage _ => ?_
      simp only [CommandTable.usageRegistration, Function.comp_apply, Offer.registration, Offer.terminal?,
        Guard.joinAll_append_toList]
      rfl

theorem branches_eq (enclosing : List (Guard γ)) (base : List Argument) :
    ∀ commands : List (Command γ ε), branches (Guard.joinAll enclosing) base commands =
      (offersBelow enclosing base commands).map Offer.registration
  | [] => rfl
  | command :: rest => by
    rw [branches_cons, offersBelow, List.map_append, List.map_flatMap, branches_eq enclosing base rest]
    congr 1
    refine List.flatMap_congr fun name _ => ?_
    exact registrationsAt_eq enclosing (base ++ [.literal name]) command

end

mutual

/-- A command makes an offer at its own node and at every path that it names. -/
theorem path_offersAt (enclosing : List (Guard γ)) (base : List Argument) :
    ∀ command : Command γ ε,
      (command.offersAt enclosing base).map Offer.path = base :: command.visitedAt base
  | ⟨name, aliases, own, executor, usages, subcommands⟩ => by
    rw [offersAt, visitedAt, List.map_cons, List.map_append, List.map_map,
      path_offersBelow (enclosing ++ own.toList) base subcommands]
    rfl

theorem path_offersBelow (enclosing : List (Guard γ)) (base : List Argument) :
    ∀ commands : List (Command γ ε),
      (offersBelow enclosing base commands).map Offer.path = visitedBelow base commands
  | [] => rfl
  | command :: rest => by
    rw [offersBelow, visitedBelow, List.map_append, List.map_flatMap,
      path_offersBelow enclosing base rest]
    congr 1
    refine List.flatMap_congr fun name _ => ?_
    exact path_offersAt enclosing (base ++ [.literal name]) command

end

/-- A command offers its own node first, and then the paths that it names. -/
theorem exists_offersAt_eq_cons (enclosing : List (Guard γ)) (base : List Argument)
    (command : Command γ ε) :
    ∃ rest, command.offersAt enclosing base =
        ⟨base, command.name, enclosing ++ command.guard.toList, command.executor, true⟩ :: rest ∧
      rest.map Offer.path = command.visitedAt base := by
  have named := path_offersAt enclosing base command
  obtain ⟨name, aliases, own, executor, usages, subcommands⟩ := command
  rw [offersAt] at named ⊢
  exact ⟨_, rfl, (List.cons.inj named).2⟩

/-! ### Where named paths start -/

mutual

theorem prefix_of_mem_visitedAt (base : List Argument) :
    ∀ (command : Command γ ε) {path : List Argument}, path ∈ command.visitedAt base → base <+: path
  | ⟨name, aliases, own, executor, usages, subcommands⟩, path, mem => by
    rw [visitedAt, List.mem_append, List.mem_map] at mem
    rcases mem with ⟨usage, -, rfl⟩ | below
    · exact List.prefix_append _ _
    · obtain ⟨command, -, name, -, beginning⟩ :=
        literal_prefix_of_mem_visitedBelow base subcommands below
      exact (List.prefix_append _ _).trans beginning

/-- A path that commands below a node name starts with a name of one of them. -/
theorem literal_prefix_of_mem_visitedBelow (base : List Argument) :
    ∀ (commands : List (Command γ ε)) {path : List Argument}, path ∈ visitedBelow base commands →
      ∃ command ∈ commands, ∃ name ∈ command.names, base ++ [.literal name] <+: path
  | [], path, mem => by simp [visitedBelow] at mem
  | command :: rest, path, mem => by
    rw [visitedBelow, List.mem_append, List.mem_flatMap] at mem
    rcases mem with ⟨name, isName, mem⟩ | mem
    · -- The path is the literal itself or one that the command names below it.
      refine ⟨command, List.mem_cons_self, name, isName, ?_⟩
      rcases List.mem_cons.mp mem with rfl | mem
      · exact List.prefix_rfl
      · exact prefix_of_mem_visitedAt (base ++ [.literal name]) command mem
    · obtain ⟨other, isOther, name, isName, beginning⟩ :=
        literal_prefix_of_mem_visitedBelow base rest mem
      exact ⟨other, List.mem_cons_of_mem _ isOther, name, isName, beginning⟩

end

theorem ne_nil_of_mem_visitedBelow {base : List Argument} {commands : List (Command γ ε)}
    {path : List Argument} (mem : path ∈ visitedBelow base commands) : path ≠ [] := by
  obtain ⟨command, -, name, -, beginning⟩ := literal_prefix_of_mem_visitedBelow base commands mem
  rintro rfl
  simp at beginning

/-- A usable command names no empty path below the root, as its usages have arguments. -/
theorem ne_nil_of_mem_visitedAt {command : Command γ ε} (sound : command.offence? = none)
    {path : List Argument} (mem : path ∈ command.visitedAt []) : path ≠ [] := by
  obtain ⟨name, aliases, own, executor, usages, subcommands⟩ := command
  rw [visitedAt, List.mem_append, List.mem_map] at mem
  rcases mem with ⟨usage, mem, rfl⟩ | mem
  · -- A usable command has no usage without arguments.
    rw [offence?] at sound
    split at sound
    · simp at sound
    · rw [Option.or_eq_none_iff, usageOffence?, Option.map_eq_none_iff,
        List.findIdx?_eq_none_iff] at sound
      simpa using sound.1 usage mem
  · exact ne_nil_of_mem_visitedBelow mem

end Command

/-! ### Ownership -/

/-- The offers at the end of a path that are not void. -/
def offersTo (path : List Argument) (offers : List (Offer γ ε)) : List (Offer γ ε) :=
  offers.filter fun offer => decide (SamePath path offer.path) && !offer.isVoid

/-- The offer that owns the node at the end of a path. If the last wins, it is the last one that is
no placeholder, and only among placeholders the first one; if the first is kept, it is the first one
of any kind. -/
def owner? (precedence : Precedence) (path : List Argument) (offers : List (Offer γ ε)) :
    Option (Offer γ ε) :=
  match precedence with
  | .lastWins =>
    ((offersTo path offers).filter (!·.isPlaceholder)).getLast?.or
      ((offersTo path offers).filter (·.isPlaceholder)).head?
  | .keepFirst => (offersTo path offers).head?

variable {precedence : Precedence} {path : List Argument} {offers : List (Offer γ ε)}
  {offer : Offer γ ε}

theorem mem_offersTo :
    offer ∈ offersTo path offers ↔
      offer ∈ offers ∧ SamePath path offer.path ∧ offer.isVoid = false := by
  simp [offersTo]

theorem offersTo_congr {other : List Argument} (same : SamePath path other) :
    offersTo path offers = offersTo other offers := by
  refine List.filter_congr fun offer _ => ?_
  have alike : SamePath path offer.path ↔ SamePath other offer.path :=
    ⟨fun h => same.symm.trans h, fun h => same.trans h⟩
  simp only [alike]

/-- The owner depends only on the positions that a path denotes. -/
theorem owner?_congr {other : List Argument} (same : SamePath path other) :
    owner? precedence path offers = owner? precedence other offers := by
  unfold owner?
  rw [offersTo_congr same]

theorem owner?_mem (owns : owner? precedence path offers = some offer) :
    offer ∈ offersTo path offers := by
  cases precedence with
  | lastWins =>
    rcases Option.or_eq_some_iff.mp owns with last | ⟨-, first⟩
    · exact (List.mem_filter.mp (List.mem_of_getLast? last)).1
    · exact (List.mem_filter.mp (List.mem_of_head? first)).1
  | keepFirst => exact List.mem_of_head? owns

/-- A node has an owner if and only if something is offered there. -/
theorem owner?_eq_none_iff : owner? precedence path offers = none ↔ offersTo path offers = [] := by
  cases precedence with
  | lastWins =>
    rw [owner?, Option.or_eq_none_iff, List.getLast?_eq_none_iff, List.head?_eq_none_iff,
      List.filter_eq_nil_iff, List.filter_eq_nil_iff, List.eq_nil_iff_forall_not_mem]
    constructor
    · rintro ⟨allHeld, noneHeld⟩ offer mem
      exact allHeld offer mem (by simpa using noneHeld offer mem)
    · intro empty
      exact ⟨fun offer mem => absurd mem (empty offer), fun offer mem => absurd mem (empty offer)⟩
  | keepFirst => exact List.head?_eq_none_iff

/-- Offers that are changed in ways that do not matter for a path have the changed offer as owner. -/
theorem owner?_map {γ' ε' : Type} {change : Offer γ ε → Offer γ' ε'} {other : List Argument}
    (there : ∀ offer ∈ offers, SamePath other (change offer).path ↔ SamePath path offer.path)
    (void : ∀ offer, (change offer).isVoid = offer.isVoid)
    (held : ∀ offer, (change offer).isPlaceholder = offer.isPlaceholder) :
    owner? precedence other (offers.map change) = (owner? precedence path offers).map change := by
  have relevant : offersTo other (offers.map change) = (offersTo path offers).map change := by
    rw [offersTo, List.filter_map]
    refine congrArg (List.map change) (List.filter_congr fun offer mem => ?_)
    simp only [Function.comp_apply, there offer mem, void]
  have held' : (·.isPlaceholder) ∘ change = (·.isPlaceholder) := funext held
  have proper' : (!·.isPlaceholder) ∘ change = (!·.isPlaceholder) := by
    funext offer
    rw [Function.comp_apply, held]
  cases precedence with
  | lastWins =>
    rw [owner?, owner?, relevant, List.filter_map, List.filter_map, held', proper',
      List.getLast?_map, List.head?_map, Option.map_or]
  | keepFirst => rw [owner?, owner?, relevant, List.head?_map]

private theorem findSome?_eq_of_forall {α β : Type} {f : α → Option β} {items : List α}
    {found : Option β} (all : ∀ item ∈ items, f item = found ∨ f item = none)
    (once : ∃ item ∈ items, f item = found) : items.findSome? f = found := by
  obtain ⟨item, mem, here⟩ := once
  cases first : items.findSome? f with
  | none => rw [← here, List.findSome?_eq_none_iff.mp first item mem]
  | some value =>
    obtain ⟨other, isOther, there⟩ := List.exists_of_findSome?_eq_some first
    rcases all other isOther with same | absent
    · rw [← same, there]
    · simp [absent] at there

/-- Offers that are made several times, beside others that stand elsewhere, have the same owner as if
they were made once. -/
theorem owner?_flatMap {α : Type} {items : List α} {offersOf : α → List (Offer γ ε)}
    (all : ∀ item ∈ items, offersTo path (offersOf item) = offersTo path offers ∨
      offersTo path (offersOf item) = [])
    (once : ∃ item ∈ items, offersTo path (offersOf item) = offersTo path offers) :
    owner? precedence path (items.flatMap offersOf) = owner? precedence path offers := by
  have relevant : offersTo path (items.flatMap offersOf) =
      items.flatMap fun item => offersTo path (offersOf item) := List.filter_flatMap
  -- The first of some kind in copies of a list is that of the list, and so is the last.
  have heads (kept : Offer γ ε → Bool) :
      ((items.flatMap fun item => offersTo path (offersOf item)).filter kept).head? =
        ((offersTo path offers).filter kept).head? := by
    rw [List.filter_flatMap, List.head?_flatMap]
    refine findSome?_eq_of_forall ?_ ?_
    · intro item mem
      exact (all item mem).imp (fun same => by rw [same]) fun nothing => by rw [nothing]; rfl
    · obtain ⟨item, mem, same⟩ := once
      exact ⟨item, mem, by rw [same]⟩
  have lasts (kept : Offer γ ε → Bool) :
      ((items.flatMap fun item => offersTo path (offersOf item)).filter kept).getLast? =
        ((offersTo path offers).filter kept).getLast? := by
    rw [List.filter_flatMap, List.getLast?_flatMap]
    refine findSome?_eq_of_forall ?_ ?_
    · intro item mem
      exact (all item (List.mem_reverse.mp mem)).imp (fun same => by rw [same])
        fun nothing => by rw [nothing]; rfl
    · obtain ⟨item, mem, same⟩ := once
      exact ⟨item, List.mem_reverse.mpr mem, by rw [same]⟩
  cases precedence with
  | lastWins => rw [owner?, owner?, relevant, lasts, heads]
  | keepFirst =>
    have first := heads fun _ => true
    rw [List.filter_true, List.filter_true] at first
    rw [owner?, owner?, relevant, first]

theorem offersTo_concat :
    offersTo path (offers ++ [offer]) =
      if SamePath path offer.path ∧ offer.isVoid = false then offersTo path offers ++ [offer]
      else offersTo path offers := by
  rw [offersTo, List.filter_append]
  by_cases here : SamePath path offer.path <;> cases void : offer.isVoid <;>
    simp [offersTo, here, void]

/-- A further offer takes over if it is no placeholder and the last wins; otherwise it gets only a
node that nobody owns. -/
theorem owner?_concat :
    owner? precedence path (offers ++ [offer]) =
      if SamePath path offer.path ∧ offer.isVoid = false then
        if precedence = .lastWins ∧ offer.isPlaceholder = false then some offer
        else (owner? precedence path offers).or (some offer)
      else owner? precedence path offers := by
  by_cases relevant : SamePath path offer.path ∧ offer.isVoid = false
  · cases precedence with
    | lastWins =>
      cases held : offer.isPlaceholder <;> simp [owner?, offersTo_concat, relevant, held]
    | keepFirst => simp [owner?, offersTo_concat, relevant]
  · simp [owner?, offersTo_concat, relevant]

end Dispatch
