import Dispatch.Proofs.Compile.Points
import Dispatch.Proofs.Trie.Spelling

/-!
# Compiled tries are spelled by their paths

A compilation gives a node the argument that the registration has which comes by first. So the trie
that it ends with is determined by the list of paths that it enters, its terminals aside: units of
the same paths are compiled to the same nodes with the same arguments and the same children.

## Main results

* `Progress.registerAll_spelledBy` — processing registrations keeps the trie spelled
* `CompileUnit.spelledBy_of_compile`, `CompileUnit.wellFormed_of_compile` — a compiled trie is spelled
  by the paths of its unit, and well formed
* `CompileUnit.sameNodes_of_paths_eq` — the nodes depend on the paths only
-/

set_option autoImplicit false

namespace Dispatch

open Argument

variable {γ ε : Type}

namespace Progress

variable {progress after : Progress γ ε} {start parent id : NodeId} {argument : Argument}
  {path base : List Argument} {paths : List (List Argument)} {settings : Settings}
  {registration : Registration γ ε} {registrations : List (Registration γ ε)}

theorem ensureChild_spelledBy (numbered : progress.trie.Numbering paths)
    (spelled : progress.trie.SpelledBy paths) (found : progress.trie.lookup? base = some parent)
    (ensured : ensureChild parent argument progress = .ok id after) :
    after.trie.SpelledBy (enter paths (base ++ [argument])) := by
  have known : Known paths (base ++ [argument]) ↔
      (progress.trie.findChild? parent argument).isSome := numbered.known_concat_iff found
  rcases ensureChild_cases ensured with ⟨present, rfl⟩ | ⟨absent, free, appended⟩
  · rw [enter, if_pos (known.mpr (by rw [present]; rfl))]
    exact spelled
  · rw [enter, if_neg fun held => by simpa [absent] using known.mp held, appended]
    exact spelled.insertChild numbered.length_eq free

theorem ensurePath_spelledBy (numbered : progress.trie.Numbering paths)
    (spelled : progress.trie.SpelledBy paths) (found : progress.trie.lookup? base = some start)
    (walked : ensurePath start path progress = .ok id after) :
    after.trie.SpelledBy (enterAll paths ((beginnings path).map (base ++ ·))) := by
  -- The path walked so far moves from `path` to `base`.
  induction path generalizing progress start base paths with
  | nil =>
    injection walked with _ unchanged
    exact unchanged ▸ spelled
  | cons argument path ih =>
    rw [ensurePath_cons] at walked
    split at walked
    · rename_i child between ensured
      have step : Reaches (enter paths (base ++ [argument])) _
          (ensureChild start argument progress) := ensureChild_reaches numbered found
      rw [ensured] at step
      obtain ⟨numbered', found', -⟩ := step
      have rest := ih numbered' (ensureChild_spelledBy numbered spelled found ensured) found' walked
      simpa [beginnings_cons, Function.comp_def] using rest
    · simp at walked

theorem register_spelledBy (numbered : progress.trie.Numbering paths)
    (spelled : progress.trie.SpelledBy paths)
    (processed : register settings registration progress = .ok () after) :
    after.trie.SpelledBy (enterAll paths (beginnings registration.path)) := by
  rw [register_eq] at processed
  split at processed
  · rename_i id between walked
    have spelled' := ensurePath_spelledBy numbered spelled Trie.lookup?_nil walked
    simp only [List.nil_append, List.map_id'] at spelled'
    injection processed with _ placed
    rcases trie_place settings registration.command id registration.entry between with
      ⟨same, -⟩ | ⟨terminal, put, -⟩
    · rw [← placed, same]
      exact spelled'
    · rw [← placed, put]
      exact spelled'.setTerminal id terminal
  · simp at processed

/-- Processing registrations keeps the trie spelled by the paths that are entered. -/
theorem registerAll_spelledBy (numbered : progress.trie.Numbering paths)
    (spelled : progress.trie.SpelledBy paths)
    (ended : registerAll settings registrations progress = .ok () after) :
    after.trie.SpelledBy (enterAll paths (registrations.flatMap fun r => beginnings r.path)) := by
  induction registrations generalizing progress paths with
  | nil =>
    injection ended with _ unchanged
    exact unchanged ▸ spelled
  | cons registration registrations ih =>
    have step := register_reaches numbered settings registration
    rw [registerAll_cons] at ended
    split at ended
    · rename_i next processed
      rw [processed] at step
      rw [List.flatMap_cons, enterAll_append]
      exact ih step.1 (register_spelledBy numbered spelled processed) ended
    · simp at ended

end Progress

namespace CompileUnit

variable {unit : CompileUnit γ ε} {settings : Settings} {trie : Trie γ ε}

theorem spelledBy_of_compile (compiled : (unit.compile settings).result = .ok trie) :
    trie.SpelledBy unit.paths := by
  obtain ⟨progress, ended, rfl⟩ := exists_run_of_compile compiled
  have numbered : (Progress.start : Progress γ ε).trie.Numbering [[]] := Trie.Numbering.empty
  have spelled := Progress.registerAll_spelledBy numbered Trie.SpelledBy.empty ended
  rw [beginnings_registrations] at spelled
  exact spelled

theorem wellFormed_of_compile (compiled : (unit.compile settings).result = .ok trie) :
    trie.WellFormed := by
  obtain ⟨progress, ended, rfl⟩ := exists_run_of_compile compiled
  exact Progress.wellFormed_of_reachable (Progress.passes_of_registerAll ended).reachable
    Trie.WellFormed.empty

/-- Units of the same paths are compiled to the same nodes, whatever the terminals are. -/
theorem sameNodes_of_paths_eq {γ' ε' : Type} {other : CompileUnit γ' ε'} {otherSettings : Settings}
    {otherTrie : Trie γ' ε'} (same : unit.paths = other.paths)
    (compiled : (unit.compile settings).result = .ok trie)
    (otherCompiled : (other.compile otherSettings).result = .ok otherTrie) :
    trie.size = otherTrie.size ∧ (∀ id, trie.argument? id = otherTrie.argument? id) ∧
      (∀ id, trie.children id = otherTrie.children id) ∧
      ∀ path, trie.lookup? path = otherTrie.lookup? path := by
  have numbered := numbering_of_compile compiled
  have otherNumbered := numbering_of_compile otherCompiled
  have size : trie.size = otherTrie.size := by
    rw [← numbered.length_eq, ← otherNumbered.length_eq, same]
  have lookups : ∀ path, trie.lookup? path = otherTrie.lookup? path := by
    intro path
    refine Option.ext fun id => ?_
    rw [numbered.lookup?_iff, otherNumbered.lookup?_iff, same]
  refine ⟨size, ?_, ?_, lookups⟩
  · intro id
    by_cases inside : id.index < unit.paths.length
    · have atSlot := List.getElem?_eq_getElem inside
      have otherSlot : other.paths[id.index]? = some unit.paths[id.index] := same ▸ atSlot
      rw [spelledBy_of_compile compiled id _ atSlot, spelledBy_of_compile otherCompiled id _ otherSlot]
    · rw [numbered.length_eq, not_lt] at inside
      rw [Trie.argument?, Trie.argument?, Trie.node?_eq_none inside,
        Trie.node?_eq_none (size ▸ inside)]
      rfl
  · intro id
    have indices : (trie.children id).map (·.index) =
        (otherTrie.children id).map fun child => 0 + child.index :=
      (wellFormed_of_compile compiled).map_index_children numbered
        (wellFormed_of_compile otherCompiled) otherNumbered 0
        (by simp only [lookups, Nat.zero_add, implies_true])
    simp only [Nat.zero_add] at indices
    exact List.map_injective_iff.mpr (fun _ _ same => NodeId.ext same) indices

end CompileUnit

end Dispatch
