import Dispatch.Proofs.Compile.Ownership
import Dispatch.Proofs.Compile.Spelling
import Dispatch.Proofs.Rearrangement
import Mathlib.Logic.Relation

/-!
# Compiling rearranged commands

Rearranged commands are compiled to tries that cannot be told apart by following paths: the same paths
lead to nodes, and at the end of each of them stands the same terminal. Which slots the nodes have, in
which order the children of a node come, which descriptions are kept and what is reported may change.

## Main definitions

* `CompileUnit.Rearranged` — a unit whose order was changed at one place
* `CompileUnit.OffersAlike` — units that offer the same, at each path in the same order
* `Trie.AlikeAlongPaths` — tries that cannot be told apart by following paths

## Main results

* `CompileUnit.Rearranged.offersAlike` — one change of order keeps what is offered at each path
* `CompileUnit.alikeAlongPaths_of_offersAlike` — units that offer alike are compiled alike
* `CompileUnit.rearranged_alikeAlongPaths` — so are units that were rearranged any number of times
-/

set_option autoImplicit false

namespace Dispatch

open Argument Command

variable {γ ε : Type}

namespace Trie

/-- Two tries that cannot be told apart by following paths. -/
structure AlikeAlongPaths (trie other : Trie γ ε) : Prop where
  size_eq : trie.size = other.size
  /-- the same paths lead to nodes -/
  isSome_lookup?_iff : ∀ path, (trie.lookup? path).isSome ↔ (other.lookup? path).isSome
  /-- the nodes at the end of a path have arguments of the same position, or both are roots -/
  arguments_same : ∀ path id id', trie.lookup? path = some id → other.lookup? path = some id' →
    Option.Rel SamePosition (trie.argument? id) (other.argument? id')
  /-- the same terminal stands at the end of a path, its guard and its executor included, or none -/
  terminalAt?_eq : ∀ path, trie.terminalAt? path = other.terminalAt? path

/-- The argument of a node denotes the position at which a path to it ends. -/
theorem exists_argument?_of_lookup? {trie : Trie γ ε} {path : List Argument} {a : Argument} {id : NodeId}
    (leads : trie.lookup? (path ++ [a]) = some id) :
    ∃ b, trie.argument? id = some b ∧ b.SamePosition a := by
  rw [lookup?_concat, Option.bind_eq_some_iff] at leads
  obtain ⟨parent, -, found⟩ := leads
  exact exists_argument?_of_findChild? found

end Trie

namespace CompileUnit

/-- A unit whose order was changed at one place: in one of its command trees, or among the commands
that are placed below the root. -/
inductive Rearranged : CompileUnit γ ε → CompileUnit γ ε → Prop
  | alone {command other : Command γ ε} (step : Command.Rearranged command other) :
      Rearranged (alone command) (alone other)
  | together {commands others : List (Command γ ε)} (order : Reordered Clash commands others) :
      Rearranged (together commands) (together others)
  | among {command other : Command γ ε} (before after : List (Command γ ε))
      (step : Command.Rearranged command other) :
      Rearranged (together (before ++ command :: after)) (together (before ++ other :: after))

/-- Two units that offer the same, at each path in the same order. -/
structure OffersAlike (unit other : CompileUnit γ ε) : Prop where
  usable_iff : unit.Usable ↔ other.Usable
  mem_offers_iff : ∀ offer, offer ∈ unit.offers ↔ offer ∈ other.offers
  offersTo_eq : ∀ path, offersTo path unit.offers = offersTo path other.offers

variable {unit other third : CompileUnit γ ε} {settings : Settings} {trie otherTrie : Trie γ ε}
  {path : List Argument}

namespace OffersAlike

theorem refl (unit : CompileUnit γ ε) : unit.OffersAlike unit :=
  ⟨Iff.rfl, fun _ => Iff.rfl, fun _ => rfl⟩

theorem trans (alike : unit.OffersAlike other) (alike' : other.OffersAlike third) :
    unit.OffersAlike third where
  usable_iff := alike.usable_iff.trans alike'.usable_iff
  mem_offers_iff offer := (alike.mem_offers_iff offer).trans (alike'.mem_offers_iff offer)
  offersTo_eq path := (alike.offersTo_eq path).trans (alike'.offersTo_eq path)

/-- The beginnings of paths at which something is offered are the same. -/
theorem mem_beginnings_iff (alike : unit.OffersAlike other) {beginning : List Argument} :
    beginning ∈ unit.visited.flatMap beginnings ↔ beginning ∈ other.visited.flatMap beginnings := by
  rw [← beginnings_offers, ← beginnings_offers]
  simp only [List.mem_flatMap, List.mem_map, alike.mem_offers_iff]

theorem known_paths_iff (alike : unit.OffersAlike other) :
    Known unit.paths path ↔ Known other.paths path := by
  rw [paths, paths, known_enterAll, known_enterAll]
  refine or_congr Iff.rfl ?_
  simp only [Known, alike.mem_beginnings_iff]

theorem nodeCount_eq (alike : unit.OffersAlike other) : unit.nodeCount = other.nodeCount := by
  have same : distinctBeginnings unit.visited = distinctBeginnings other.visited := by
    ext positions
    simp only [distinctBeginnings, List.mem_toFinset, List.mem_map, alike.mem_beginnings_iff]
  rw [nodeCount, nodeCount, same]

end OffersAlike

/-! ### One change of order -/

/-- A command that takes the place of another one that has the same names and offers alike. -/
private theorem offersBelow_among {command replaced : Command γ ε} {before after : List (Command γ ε)}
    (step : Command.Rearranged command replaced) :
    (together (before ++ command :: after)).OffersAlike (together (before ++ replaced :: after)) where
  usable_iff := by
    simp only [Usable, commands, List.forall_mem_append, List.forall_mem_cons,
      step.offence?_eq_none_iff]
  mem_offers_iff offer := by
    simp only [offers, mem_offersBelow, List.mem_append, List.mem_cons, or_and_right, exists_or,
      exists_eq_left, step.names_eq, step.mem_offersAt_iff]
  offersTo_eq path := by
    simp only [offers, offersTo_offersBelow, List.flatMap_append, List.flatMap_cons, step.names_eq,
      step.offersTo_offersAt]

/-- One change of order keeps what is offered at each path. -/
theorem Rearranged.offersAlike (step : Rearranged unit other) : unit.OffersAlike other := by
  cases step with
  | alone step =>
    refine ⟨?_, fun offer => step.mem_offersAt_iff, fun path => step.offersTo_offersAt⟩
    simp only [Usable, commands, List.forall_mem_singleton, step.offence?_eq_none_iff]
  | together order =>
    refine ⟨?_, fun offer => mem_offersBelow_reordered order,
      fun path => offersTo_offersBelow_reordered order⟩
    simp only [Usable, commands, order.mem_iff]
  | among before after step => exact offersBelow_among step

/-! ### Any number of changes -/

theorem offersAlike_of_rearranged (steps : Relation.ReflTransGen Rearranged unit other) :
    unit.OffersAlike other := by
  induction steps with
  | refl => exact OffersAlike.refl unit
  | tail _ step ih => exact ih.trans step.offersAlike

theorem arguments_same_of_compile (compiled : (unit.compile settings).result = .ok trie)
    (otherCompiled : (other.compile settings).result = .ok otherTrie) {id id' : NodeId}
    (leads : trie.lookup? path = some id) (leads' : otherTrie.lookup? path = some id') :
    Option.Rel SamePosition (trie.argument? id) (otherTrie.argument? id') := by
  rcases List.eq_nil_or_concat path with rfl | ⟨path, a, rfl⟩
  · -- The empty path leads to the roots, which have no arguments.
    obtain rfl := Option.some_inj.mp leads
    obtain rfl := Option.some_inj.mp leads'
    have bare := ((wellFormed_of_compile compiled).argument?_eq_none_iff .root trie.nonempty).mpr rfl
    have bare' :=
      ((wellFormed_of_compile otherCompiled).argument?_eq_none_iff .root otherTrie.nonempty).mpr rfl
    rw [bare, bare']
    exact .none
  · rw [List.concat_eq_append] at leads leads'
    obtain ⟨b, labelled, same⟩ := Trie.exists_argument?_of_lookup? leads
    obtain ⟨b', labelled', same'⟩ := Trie.exists_argument?_of_lookup? leads'
    rw [labelled, labelled']
    exact .some (same.trans same'.symm)

/-- Units that offer alike are compiled to tries that are alike along paths. -/
theorem alikeAlongPaths_of_offersAlike (alike : unit.OffersAlike other)
    (compiled : (unit.compile settings).result = .ok trie)
    (otherCompiled : (other.compile settings).result = .ok otherTrie) :
    trie.AlikeAlongPaths otherTrie := by
  have numbered := numbering_of_compile compiled
  have otherNumbered := numbering_of_compile otherCompiled
  refine ⟨?_, ?_, ?_, ?_⟩
  · rw [← numbered.length_eq, ← otherNumbered.length_eq, length_paths, length_paths,
      alike.nodeCount_eq]
  · intro path
    rw [numbered.isSome_lookup?_iff, otherNumbered.isSome_lookup?_iff, alike.known_paths_iff]
  · intro path id id' leads leads'
    exact arguments_same_of_compile compiled otherCompiled leads leads'
  · intro path
    -- The owner of a node is told by what is offered there.
    have owner : owner? settings.precedence path unit.offers =
        owner? settings.precedence path other.offers := by
      unfold owner?
      rw [alike.offersTo_eq]
    rw [terminalAt?_eq compiled, terminalAt?_eq otherCompiled, owner]

/-- The order of usages and of commands may be changed any number of times and at any depth, as long as
those that clash follow one another as before. A unit that is compiled in the one order is compiled in
the other order as well, and the two tries are alike along paths. -/
theorem rearranged_alikeAlongPaths (steps : Relation.ReflTransGen Rearranged unit other)
    (compiled : (unit.compile settings).result = .ok trie) :
    ∃ otherTrie, (other.compile settings).result = .ok otherTrie ∧ trie.AlikeAlongPaths otherTrie := by
  have alike := offersAlike_of_rearranged steps
  obtain ⟨usable, fits⟩ := (exists_compile_eq_ok_iff settings unit).mp ⟨trie, compiled⟩
  obtain ⟨otherTrie, otherCompiled⟩ := (exists_compile_eq_ok_iff settings other).mpr
    ⟨alike.usable_iff.mp usable, alike.nodeCount_eq ▸ fits⟩
  exact ⟨otherTrie, otherCompiled, alikeAlongPaths_of_offersAlike alike compiled otherCompiled⟩

/-- An example: two usages that share their first node, and a subcommand with two subcommands. -/
def board (moves : List (Usage String String)) (actions : List (Command String String)) :
    CompileUnit String String :=
  .alone
    { name := "board"
      aliases := []
      guard := some (.single "player")
      executor := none
      usages := moves
      subcommands :=
        [{ name := "game"
           aliases := ["g"]
           guard := none
           executor := none
           usages := []
           subcommands := actions }] }

/-- A usage that takes the number of a row. -/
def moveUp : Usage String String :=
  ⟨[.typed "at" .integer (some "a row"), .literal "up"], some "move up", none⟩

/-- A usage that takes the number of a column. -/
def moveLeft : Usage String String :=
  ⟨[.typed "at" .integer (some "a column"), .literal "left"], some "move left", none⟩

/-- A command of a name and an executor. -/
def act (name : String) : Command String String := { Command.ofName name with executor := some name }

/-- Two changes of order, one of them a level further down. The node that the usages share keeps the
other description, but along paths nothing has changed. -/
theorem board_alikeAlongPaths : ∃ trie other,
    ((board [moveUp, moveLeft] [act "start", act "stop"]).compile {}).result = .ok trie ∧
      ((board [moveLeft, moveUp] [act "stop", act "start"]).compile {}).result = .ok other ∧
      trie.AlikeAlongPaths other ∧
      trie.argument? ⟨1, by decide⟩ = some (.typed "at" .integer (some "a row")) ∧
      other.argument? ⟨1, by decide⟩ = some (.typed "at" .integer (some "a column")) := by
  obtain ⟨trie, compiled⟩ :=
    (exists_compile_eq_ok_iff {} (board [moveUp, moveLeft] [act "start", act "stop"])).mpr
      ⟨by decide, by decide⟩
  have moves : Reordered Usage.Clash [moveUp, moveLeft] [moveLeft, moveUp] :=
    Reordered.pair (by unfold Usage.Clash; decide)
  have actions : Reordered Clash [act "start", act "stop"] [act "stop", act "start"] :=
    Reordered.pair (by unfold Clash; decide)
  have steps : Relation.ReflTransGen Rearranged
      (board [moveUp, moveLeft] [act "start", act "stop"])
      (board [moveLeft, moveUp] [act "stop", act "start"]) :=
    .tail (.single (.alone (.usages moves)))
      (.alone (@Command.Rearranged.within _ _ _ _ _ [] [] rfl (.subcommands actions)))
  obtain ⟨other, otherCompiled, alike⟩ := rearranged_alikeAlongPaths steps compiled
  exact ⟨trie, other, compiled, otherCompiled, alike,
    spelledBy_of_compile compiled ⟨1, by decide⟩ _ rfl,
    spelledBy_of_compile otherCompiled ⟨1, by decide⟩ _ rfl⟩

end CompileUnit

end Dispatch
