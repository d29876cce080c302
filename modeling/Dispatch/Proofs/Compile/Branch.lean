import Dispatch.Manifest.Basic
import Dispatch.Proofs.Bearing
import Dispatch.Proofs.Compile.NodeSet
import Dispatch.Proofs.Compile.Ownership
import Dispatch.Proofs.Compile.Spelling
import Dispatch.Proofs.Trie.Hanging

/-!
# The branches of a compiled trie

Commands that are compiled together do not get in each other's way: below a name that belongs to one
command only, the trie is the one to which this command is compiled alone, moved to later slots. The
names of the commands are the literals below the root.

## Main results

* `CompileUnit.exists_branch` — a command that is compiled alone hangs below each of its sole names
* `Manifest.isSome_find?_iff` — the commands of a manifest are found by the literals below the root
* `CompileUnit.branches_agree` — both together, and that the layouts are equal
-/

set_option autoImplicit false

namespace Dispatch

open Argument Command

variable {γ ε : Type}

namespace CompileUnit

variable {commands : List (Command γ ε)} {command : Command γ ε} {name : String}
  {settings : Settings} {trie : Trie γ ε} {path : List Argument}

/-! ### The paths below a sole name -/

/-- What a command offers under one of its names. -/
def offersUnder (bearing : Command γ ε × String) : List (Offer γ ε) :=
  bearing.1.offersAt [] [.literal bearing.2]

/-- A path behind a name comes from what is offered under this name. -/
theorem exists_offersUnder_of_known {bearings : List (Command γ ε × String)}
    (known : Known (enterAll [[]] (((bearings.flatMap offersUnder).map Offer.path).flatMap beginnings))
      (.literal name :: path)) :
    ∃ bearing ∈ bearings, bearing.2 = name ∧ ∃ offer ∈ offersUnder bearing,
      ∃ rest, .literal name :: rest <+: offer.path ∧ SamePath path rest := by
  rcases known_enterAll.mp known with ⟨root, isRoot, same⟩ | ⟨beginning, isBeginning, same⟩
  · rw [List.mem_singleton.mp isRoot] at same
    simp at same
  · obtain ⟨offered, isPath, begins⟩ := List.mem_flatMap.mp isBeginning
    obtain ⟨offer, isOffer, rfl⟩ := List.mem_map.mp isPath
    obtain ⟨bearing, isBearing, made⟩ := List.mem_flatMap.mp isOffer
    obtain ⟨rest, rfl, alike⟩ := exists_eq_literal_cons same
    have starts : .literal name :: rest <+: offer.path := (mem_beginnings.mp begins).2
    -- The path of the offer starts with the name that it is made under.
    have under : [.literal bearing.2] <+: offer.path := prefix_of_mem_offersAt made
    obtain ⟨tail, whole⟩ := starts
    rw [← whole, List.cons_append, List.cons_prefix_cons] at under
    exact ⟨bearing, isBearing, by simpa using under.1, offer, made, rest, ⟨tail, whole⟩, alike⟩

theorem offersUnder_eq (command : Command γ ε) (name : String) :
    offersUnder (command, name) = (alone command).offers.map (Offer.below [.literal name]) :=
  offersAt_eq_map_below [] [.literal name] command

theorem offers_together (commands : List (Command γ ε)) :
    (together commands).offers = (bearings commands).flatMap offersUnder :=
  offersBelow_eq_flatMap [] [] commands

/-- The paths of a command stand in one piece behind those that come up before its sole name does. -/
theorem exists_paths_together (sole : IsSoleBearer commands name command) :
    ∃ front, front ++ (alone command).paths.map (.literal name :: ·) <+: (together commands).paths := by
  obtain ⟨before, after, split, unnamed⟩ := sole.exists_bearings_eq
  let front := enterAll [[]] (((before.flatMap offersUnder).map Offer.path).flatMap beginnings)
  -- What comes up before the name does is offered under other names.
  have unknown : ∀ path, ¬ Known front (.literal name :: path) := by
    intro path known
    obtain ⟨bearing, mem, same, -⟩ := exists_offersUnder_of_known known
    exact unnamed bearing mem same
  have own : (offersUnder (command, name)).map Offer.path =
      ([] :: command.visitedAt []).map (.literal name :: ·) := by
    rw [offersUnder_eq, ← path_offersAt [], List.map_map, List.map_map]
    rfl
  refine ⟨front, ?_⟩
  rw [paths_eq (together commands), offers_together, split, List.flatMap_append, List.flatMap_cons,
    List.map_append, List.map_append, own, List.flatMap_append, List.flatMap_append, enterAll_append,
    enterAll_append, enterAll_beginnings_map_cons unknown]
  exact prefix_enterAll

/-- Behind a sole name no other paths are known than those of its bearer. -/
theorem known_of_known_together (sole : IsSoleBearer commands name command)
    (known : Known (together commands).paths (.literal name :: path)) :
    Known (alone command).paths path := by
  rw [paths_eq, offers_together] at known
  obtain ⟨bearing, isBearing, same, offer, mem, rest, starts, alike⟩ := exists_offersUnder_of_known known
  obtain rfl := sole.eq_of_mem_bearings isBearing same
  rw [offersUnder_eq] at mem
  obtain ⟨inner, isOffer, rfl⟩ := List.mem_map.mp mem
  have begins : rest <+: inner.path := (List.cons_prefix_cons.mp starts).2
  -- An offer of a command stands at its own node or at a path that it names.
  have named : inner.path ∈ [] :: command.visitedAt [] :=
    path_offersAt [] [] command ▸ List.mem_map_of_mem isOffer
  rw [known_paths_iff]
  rcases List.mem_cons.mp named with root | visited
  · rw [root, List.prefix_nil] at begins
    rw [begins, samePath_nil_right] at alike
    exact Or.inl alike
  · exact Or.inr ⟨inner.path, visited, rest, begins, alike⟩

/-! ### The branch of a sole name -/

/-- What is compiled together with others can be compiled alone. -/
theorem exists_compile_alone (compiled : ((together commands).compile settings).result = .ok trie)
    (sole : IsSoleBearer commands name command) :
    ∃ branch, ((alone command).compile settings).result = .ok branch := by
  obtain ⟨usable, fits⟩ := (exists_compile_eq_ok_iff settings _).mp ⟨trie, compiled⟩
  obtain ⟨front, placed⟩ := exists_paths_together sole
  have isCommand : command ∈ commands := (mem_bearings.mp sole.mem_bearings).1
  refine (exists_compile_eq_ok_iff settings _).mpr ⟨?_, ?_⟩
  · intro other mem
    rw [List.mem_singleton.mp mem]
    exact usable command isCommand
  · -- The nodes of the command are among those of all commands, so there is room for them.
    have shorter : front.length + (alone command).paths.length ≤ (together commands).paths.length := by
      simpa using placed.length_le
    rw [length_paths, length_paths] at shorter
    omega

/-- Below a sole name stand the terminals that its bearer has alone. -/
theorem terminalAt?_together {branch : Trie γ ε}
    (compiled : ((together commands).compile settings).result = .ok trie)
    (sole : IsSoleBearer commands name command)
    (aloneCompiled : ((alone command).compile settings).result = .ok branch) (path : List Argument) :
    trie.terminalAt? (.literal name :: path) = branch.terminalAt? path := by
  have owner : owner? settings.precedence (.literal name :: path) (together commands).offers =
      (owner? settings.precedence path (alone command).offers).map (Offer.below [.literal name]) :=
    sole.owner?_eq [] path
  rw [terminalAt?_eq compiled, terminalAt?_eq aloneCompiled, owner]
  cases owner? settings.precedence path (alone command).offers <;> rfl

/-- The trie of a command that is compiled alone hangs below each of its sole names in the trie of
several commands. -/
theorem exists_branch (compiled : ((together commands).compile settings).result = .ok trie)
    (sole : IsSoleBearer commands name command) :
    ∃ top branch, ((alone command).compile settings).result = .ok branch ∧
      trie.lookup? [.literal name] = some top ∧ branch.HangsAt trie top ∧
      ∀ path, (trie.lookup? (.literal name :: path)).map (·.index) =
        (branch.lookup? path).map fun id => top.index + id.index := by
  obtain ⟨branch, aloneCompiled⟩ := exists_compile_alone compiled sole
  obtain ⟨front, placed⟩ := exists_paths_together sole
  obtain ⟨top, found, hangs, moved⟩ :=
    Trie.hangsAt_of_paths (numbering_of_compile compiled) (numbering_of_compile aloneCompiled) placed
      (fun _ => known_of_known_together sole) (wellFormed_of_compile compiled)
      (wellFormed_of_compile aloneCompiled) (spelledBy_of_compile compiled)
      (spelledBy_of_compile aloneCompiled) (terminalAt?_together compiled sole aloneCompiled)
  exact ⟨top, branch, aloneCompiled, found, hangs, moved⟩

/-! ### The literals below the root -/

/-- The names of commands are the literals below the root. -/
theorem exists_literal_child_iff (compiled : ((together commands).compile settings).result = .ok trie) :
    (∃ child ∈ trie.children .root, trie.argument? child = some (.literal name)) ↔
      ∃ command ∈ commands, name ∈ command.names := by
  have numbered := numbering_of_compile compiled
  have followed : (∃ child ∈ trie.children .root, trie.argument? child = some (.literal name)) ↔
      Known (together commands).paths [.literal name] := by
    rw [← numbered.isSome_lookup?_iff, Trie.lookup?_singleton]
    exact (wellFormed_of_compile compiled).exists_literal_child_iff
  rw [followed, paths_eq, offers_together]
  constructor
  · intro known
    obtain ⟨bearing, isBearing, rfl, -⟩ := exists_offersUnder_of_known known
    exact ⟨bearing.1, mem_bearings.mp isBearing⟩
  · rintro ⟨command, isCommand, named⟩
    have isBearing : (command, name) ∈ bearings commands := mem_bearings.mpr ⟨isCommand, named⟩
    -- The first offer of a command stands at its own node.
    have own : [.literal name] ∈ (offersUnder (command, name)).map Offer.path := by
      rw [offersUnder, path_offersAt]
      exact List.mem_cons_self
    have offered : [.literal name] ∈ ((bearings commands).flatMap offersUnder).map Offer.path := by
      rw [List.map_flatMap]
      exact List.mem_flatMap.mpr ⟨_, isBearing, own⟩
    have begins : [.literal name] ∈ beginnings [.literal name] :=
      mem_beginnings.mpr ⟨List.cons_ne_nil _ _, List.prefix_rfl⟩
    exact known_enterAll.mpr
      (Or.inr ⟨[.literal name], List.mem_flatMap.mpr ⟨_, offered, begins⟩, SamePath.refl _⟩)

end CompileUnit

theorem Manifest.isSome_find?_iff {manifest : Manifest} {name : String} :
    (manifest.find? name).isSome ↔ ∃ command ∈ manifest.commands, name ∈ command.names := by
  simp [Manifest.find?, List.find?_isSome]

namespace CompileUnit

/-- Whatever else is compiled with a command, the branch of each name that belongs to no other command
is the trie of the command alone, slot by slot and moved by the slot of the name: with the same
arguments but that of the topmost node, the same children in the same order and the same terminals, and
hence with the same layout. The commands of a manifest are found by the literals below the root. -/
theorem branches_agree :
    (∀ (commands : List (Command γ ε)) (settings : Settings) (trie : Trie γ ε) (name : String)
      (command : Command γ ε), ((together commands).compile settings).result = .ok trie →
        IsSoleBearer commands name command →
          ∃ top branch, ((alone command).compile settings).result = .ok branch ∧
            trie.lookup? [.literal name] = some top ∧ branch.HangsAt trie top ∧
            (∀ path, (trie.lookup? (.literal name :: path)).map (·.index) =
              (branch.lookup? path).map fun id => top.index + id.index) ∧
            Layout.ofNode trie top = .node (some (.literal name)) branch.layout.hasGuard
              branch.layout.hasExecutor branch.layout.children) ∧
    ∀ (manifest : Manifest) (trie : Trie Permission Label), manifest.compile.result = .ok trie →
      ∀ name, (manifest.find? name).isSome ↔
        ∃ child ∈ trie.children .root, trie.argument? child = some (.literal name) := by
  refine ⟨?_, ?_⟩
  · intro commands settings trie name command compiled sole
    obtain ⟨top, branch, aloneCompiled, found, hangs, moved⟩ := exists_branch compiled sole
    have labelled : trie.argument? top = some (.literal name) := by
      rw [Trie.lookup?_singleton] at found
      exact Trie.argument?_of_findChild?_literal found
    refine ⟨top, branch, aloneCompiled, found, hangs, moved, ?_⟩
    rw [hangs.layout_eq, labelled]
  · intro manifest trie compiled name
    have together : ((together manifest.commands).compile manifest.settings).result = .ok trie :=
      compiled
    rw [exists_literal_child_iff together, Manifest.isSome_find?_iff]

/-- An example: a command that bears an alias twice, and another alias that is not its own. -/
def say : Command Permission Label where
  name := "say"
  aliases := ["s", "tell", "tell"]
  guard := some (.single ⟨"speech"⟩)
  executor := none
  usages := [⟨[.typed "text" .greedy (some "what to say")], some ⟨"say <text...>"⟩, none⟩]
  subcommands := []

/-- A manifest in which `say` comes after a command that has the alias `s` as well. -/
def speech : Manifest where
  settings := {}
  commands := [⟨"stop", ["s"], none, some ⟨"stop"⟩, [], []⟩, say]

/-- The trie of `say` hangs in slot 6, below the literal `tell`, and both commands are found by the
literals below the root. -/
theorem speech_branches : ∃ trie top branch, speech.compile.result = .ok trie ∧
    ((alone say).compile {}).result = .ok branch ∧ trie.lookup? [.literal "tell"] = some top ∧
    top.index = 6 ∧ branch.HangsAt trie top ∧
    ∃ child ∈ trie.children .root, trie.argument? child = some (.literal "s") := by
  obtain ⟨trie, compiled⟩ :=
    (exists_compile_eq_ok_iff {} (together speech.commands)).mpr ⟨by decide, by decide⟩
  have sole : IsSoleBearer speech.commands "tell" say := ⟨[_], [], rfl, by decide, by decide⟩
  obtain ⟨branches, found⟩ := @branches_agree Permission Label
  obtain ⟨top, branch, aloneCompiled, leads, hangs, -, -⟩ :=
    branches speech.commands {} trie "tell" say compiled sole
  have slot : trie.lookup? [.literal "tell"] = some ⟨6, by decide⟩ :=
    ((numbering_of_compile compiled).lookup?_iff _ _).mpr
      ⟨[.literal "tell"], by decide, SamePath.refl _⟩
  have index : top.index = 6 :=
    congrArg NodeId.index (Option.some_inj.mp (leads.symm.trans slot))
  exact ⟨trie, top, branch, compiled, aloneCompiled, leads, index, hangs,
    (found speech trie compiled "s").mp (by decide)⟩

end CompileUnit

end Dispatch
