import Dispatch.Proofs.Compile.Spelling

/-!
# The order of nodes

A compilation numbers its nodes as it comes by them for the first time. Listing the beginnings of all
paths that the commands name, in the order in which they are walked and without those that came up
before, gives the paths of the nodes behind the root, slot by slot. Hence the children of a node stand
in the order in which they were first walked to, and the argument of a node, with its description, is
the one of the first path that passes through the node.

## Main definitions

* `CompileUnit.firstVisits` — the beginnings of the named paths, each where it comes up first

## Main results

* `CompileUnit.paths_eq_cons` — behind the root, the paths of the nodes are the first visits
* `CompileUnit.children_eq_filterMap` — the children of a node are in the order of the first visits
* `CompileUnit.nodes_ordered` — slots, children and arguments follow the first visits
-/

set_option autoImplicit false

namespace Dispatch.CompileUnit

open Argument

variable {γ ε : Type} {unit : CompileUnit γ ε} {settings : Settings} {trie : Trie γ ε} {id : NodeId}
  {base path : List Argument}

/-- The nonempty beginnings of the named paths in the order in which they are walked, the shortest ones
of each path first, without those that denote the same positions as an earlier one. -/
def firstVisits (unit : CompileUnit γ ε) : List (List Argument) :=
  enterAll [] (unit.visited.flatMap beginnings)

/-- The root comes first, and then the first visits. -/
theorem paths_eq_cons (unit : CompileUnit γ ε) : unit.paths = [] :: unit.firstVisits := by
  apply enterAll_nil_cons
  intro path mem
  obtain ⟨visit, -, begins⟩ := List.mem_flatMap.mp mem
  exact (mem_beginnings.mp begins).1

theorem getElem?_paths {k : Nat} (visited : unit.firstVisits[k]? = some path) (slot : id.index = k + 1) :
    unit.paths[id.index]? = some path := by
  rw [paths_eq_cons, slot, List.getElem?_cons_succ, visited]

/-- The children of a node are the ends of the first visits that go on from it by one argument, in
their order. -/
theorem children_eq_filterMap (compiled : (unit.compile settings).result = .ok trie)
    (leads : trie.lookup? base = some id) :
    trie.children id =
      (unit.firstVisits.filter fun path => decide (Continues base path)).filterMap trie.lookup? := by
  have formed := wellFormed_of_compile compiled
  have rootless : ¬ Continues base [] := fun continues => continues.1 rfl
  rw [formed.children_eq_filterMap (numbering_of_compile compiled) leads, paths_eq_cons,
    List.filter_cons_of_neg (by simpa using rootless)]

/-- The nodes of a compiled trie stand in the order of the first visits. Behind the root there is a node
for every first visit, in the same order; its argument is the last one of that visit, which is a
beginning of the first named path that passes through the node; and the children of every node are
listed in the order in which they were first visited. -/
theorem nodes_ordered (compiled : (unit.compile settings).result = .ok trie) :
    trie.size = unit.firstVisits.length + 1 ∧
      (∀ k path, unit.firstVisits[k]? = some path → ∀ id : NodeId, id.index = k + 1 →
        (∀ other, trie.lookup? other = some id ↔ SamePath other path) ∧
          trie.argument? id = path.getLast? ∧
          ∃ earlier visit later, unit.visited = earlier ++ visit :: later ∧ path <+: visit ∧
            ∀ other ∈ earlier, ∀ start, start <+: other → ¬ SamePath start path) ∧
      ∀ base id, trie.lookup? base = some id → trie.children id =
        (unit.firstVisits.filter fun path => decide (Continues base path)).filterMap trie.lookup? := by
  have numbered := numbering_of_compile compiled
  refine ⟨?_, ?_, fun base id => children_eq_filterMap compiled⟩
  · rw [← numbered.length_eq, paths_eq_cons, List.length_cons]
  · intro k path listed id slot
    have atSlot : unit.paths[id.index]? = some path := getElem?_paths listed slot
    have found := numbered.lookup?_of_getElem? atSlot
    exact ⟨numbered.leads_iff found, spelledBy_of_compile compiled id path atSlot,
      exists_first_of_mem_enterAll (List.mem_of_getElem? listed)⟩

/-- An example: two usages that share their first node, and another one between them. -/
def fares : CompileUnit String String :=
  .alone
    { name := "fares"
      aliases := []
      guard := none
      executor := none
      usages :=
        [⟨[.typed "to" .word (some "a town"), .literal "single"], some "single fare", none⟩,
          ⟨[.literal "list"], some "all fares", none⟩,
          ⟨[.typed "to" .word (some "a place"), .literal "return"], some "return fare", none⟩]
      subcommands := [] }

/-- The node that the usages share keeps the description of the first one, and its children come in the
order of the usages, although they are no neighbours in the arena. -/
theorem fares_ordered : ∃ trie, (fares.compile {}).result = .ok trie ∧
    trie.argument? ⟨1, by decide⟩ = some (.typed "to" .word (some "a town")) ∧
    trie.children ⟨1, by decide⟩ = [⟨2, by decide⟩, ⟨4, by decide⟩] := by
  obtain ⟨trie, compiled⟩ :=
    (exists_compile_eq_ok_iff {} fares).mpr ⟨by decide, by decide⟩
  obtain ⟨-, slots, children⟩ := nodes_ordered compiled
  have shared := slots 0 _ rfl ⟨1, by decide⟩ rfl
  have single := slots 1 _ rfl ⟨2, by decide⟩ rfl
  have back := slots 3 _ rfl ⟨4, by decide⟩ rfl
  have next : (fares.firstVisits.filter fun path =>
      decide (Continues [.typed "to" .word (some "a town")] path)) =
        [[.typed "to" .word (some "a town"), .literal "single"],
          [.typed "to" .word (some "a place"), .literal "return"]] := by
    decide
  refine ⟨trie, compiled, shared.2.1, ?_⟩
  rw [children _ _ ((shared.1 _).mpr (SamePath.refl _)), next,
    List.filterMap_cons_some ((single.1 _).mpr (SamePath.refl _)),
    List.filterMap_cons_some ((back.1 _).mpr (SamePath.refl _)), List.filterMap_nil]

end Dispatch.CompileUnit
