import Dispatch.Proofs.Compile.Unit

/-!
# The nodes of a compiled trie

The nodes of a compiled trie are the beginnings of the paths that the commands name, whether or not
anything is offered there. No path is lost, none is invented, and paths that denote the same
positions share their nodes.

## Main results

* `CompileUnit.isSome_lookup?_iff` — which paths lead to a node
* `CompileUnit.lookup?_eq_iff` — which paths lead to the same node
* `CompileUnit.nodes_eq_beginnings` — when a trie is compiled, and which nodes it has
-/

set_option autoImplicit false

namespace Dispatch.CompileUnit

open Argument

variable {γ ε : Type} {unit : CompileUnit γ ε} {settings : Settings} {trie : Trie γ ε}
  {path other : List Argument}

/-- The paths of the nodes are the empty one and the beginnings of named paths. -/
theorem known_paths_iff : Known unit.paths path ↔
    path = [] ∨ ∃ visited ∈ unit.visited, ∃ beginning, beginning <+: visited ∧
      SamePath path beginning := by
  rw [paths, known_enterAll]
  constructor
  · rintro (⟨root, isRoot, same⟩ | ⟨beginning, mem, same⟩)
    · rw [List.mem_singleton.mp isRoot] at same
      exact Or.inl (samePath_nil_right.mp same)
    · obtain ⟨visited, named, mem⟩ := List.mem_flatMap.mp mem
      exact Or.inr ⟨visited, named, beginning, (mem_beginnings.mp mem).2, same⟩
  · rintro (rfl | ⟨visited, named, beginning, starts, same⟩)
    · exact Or.inl ⟨[], List.mem_singleton_self [], SamePath.refl []⟩
    · -- The empty beginning is that of the root, which is no beginning of its own.
      by_cases empty : beginning = []
      · subst empty
        exact Or.inl ⟨[], List.mem_singleton_self [], same⟩
      · have mem : beginning ∈ unit.visited.flatMap beginnings :=
          List.mem_flatMap.mpr ⟨visited, named, mem_beginnings.mpr ⟨empty, starts⟩⟩
        exact Or.inr ⟨beginning, mem, same⟩

/-- A path leads to a node if and only if it is a beginning of a named path, descriptions aside. -/
theorem isSome_lookup?_iff (compiled : (unit.compile settings).result = .ok trie) :
    (trie.lookup? path).isSome ↔ path = [] ∨ ∃ visited ∈ unit.visited,
      ∃ beginning, beginning <+: visited ∧ SamePath path beginning := by
  rw [(numbering_of_compile compiled).isSome_lookup?_iff, known_paths_iff]

/-- A path leads to the node of another if and only if they are the same, descriptions aside. -/
theorem lookup?_eq_iff (compiled : (unit.compile settings).result = .ok trie)
    (leads : (trie.lookup? path).isSome) :
    trie.lookup? other = trie.lookup? path ↔ SamePath other path := by
  obtain ⟨id, found⟩ := Option.isSome_iff_exists.mp leads
  rw [found]
  exact (numbering_of_compile compiled).leads_iff found other

theorem size_of_compile (compiled : (unit.compile settings).result = .ok trie) :
    trie.size = 1 + (distinctBeginnings unit.visited).card := by
  rw [← (numbering_of_compile compiled).length_eq, length_paths, nodeCount]

/-- A trie is compiled exactly if all commands are usable and the beginnings of the named paths fit
into an arena; then its nodes are these beginnings and the root. -/
theorem nodes_eq_beginnings (settings : Settings) (unit : CompileUnit γ ε) :
    ((∃ trie, (unit.compile settings).result = .ok trie) ↔
      unit.Usable ∧ 1 + (distinctBeginnings unit.visited).card ≤ NodeId.capacity) ∧
    ∀ trie, (unit.compile settings).result = .ok trie →
      trie.size = 1 + (distinctBeginnings unit.visited).card ∧
      (∀ path, (trie.lookup? path).isSome ↔ path = [] ∨ ∃ visited ∈ unit.visited,
        ∃ beginning, beginning <+: visited ∧ SamePath path beginning) ∧
      ∀ path other, (trie.lookup? path).isSome →
        (trie.lookup? other = trie.lookup? path ↔ SamePath other path) := by
  refine ⟨exists_compile_eq_ok_iff settings unit, ?_⟩
  intro trie compiled
  refine ⟨size_of_compile compiled, ?_, ?_⟩
  · intro path
    exact isSome_lookup?_iff compiled
  · intro path other leads
    exact lookup?_eq_iff compiled leads

/-- The usages `reload` and `stop` share their nodes with the subcommands of these names. -/
theorem sample_size : ∃ trie, (sample.compile {}).result = .ok trie ∧ trie.size = 6 := by
  obtain ⟨succeeds, nodes⟩ := nodes_eq_beginnings {} sample
  obtain ⟨trie, compiled⟩ := succeeds.mpr ⟨by decide, by decide⟩
  refine ⟨trie, compiled, ?_⟩
  rw [(nodes trie compiled).1]
  decide

end Dispatch.CompileUnit
