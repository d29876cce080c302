import Dispatch.Proofs.Trie.Numbering
import Dispatch.Proofs.Trie.WellFormed
import Mathlib.Data.List.Pairwise
import Mathlib.Data.List.Sort

/-!
# Reading a trie off its paths

A trie that is well formed and numbered by a list of paths is determined by the list, its terminals
aside: the argument of a node is the last one of its path, and its children are the nodes whose paths
are longer by one argument, in the order in which they come up.

## Main definitions

* `Trie.SpelledBy` — the argument of every node is the last one of its path

## Main results

* `Trie.SpelledBy.insertChild`, `Trie.SpelledBy.setTerminal` — both changes keep a trie spelled
* `Trie.WellFormed.mem_children_iff` — the children of a node by paths
* `Trie.WellFormed.children_eq_filterMap` — children come in the order of their paths
* `Trie.WellFormed.exists_literal_child_iff` — the literals below a node are found under themselves
* `Trie.WellFormed.map_index_children` — nodes that are followed alike have the same children
-/

set_option autoImplicit false

namespace Dispatch.Trie

open Argument

variable {γ ε : Type} {trie : Trie γ ε} {parent id child : NodeId} {argument a : Argument}
  {path base : List Argument} {paths : List (List Argument)}

/-- The argument of every node is the last one of its path; the empty path has none. -/
def SpelledBy (trie : Trie γ ε) (paths : List (List Argument)) : Prop :=
  ∀ (id : NodeId) (path : List Argument), paths[id.index]? = some path →
    trie.argument? id = path.getLast?

namespace SpelledBy

theorem empty : (Trie.empty : Trie γ ε).SpelledBy [[]] := by
  intro id path atSlot
  obtain ⟨inside, rfl⟩ := List.getElem?_eq_some_iff.mp atSlot
  have first : id = .root := NodeId.ext (by simpa [NodeId.root] using inside)
  subst first
  rfl

/-- The node that is appended is spelled by the path that is appended. -/
theorem insertChild (spelled : trie.SpelledBy paths) (length : paths.length = trie.size)
    (free : id.index = trie.size) :
    (trie.insertChild parent argument id free).SpelledBy (paths ++ [base ++ [argument]]) := by
  intro i path atSlot
  rw [argument?_insertChild]
  by_cases new : i = id
  · have last : i.index = paths.length := by rw [new, free, length]
    rw [last, List.getElem?_concat_length, Option.some_inj] at atSlot
    rw [if_pos new, ← atSlot, List.getLast?_concat]
  · rw [if_neg new]
    -- The slot of any other path was taken before.
    have other : i.index ≠ paths.length := by
      rw [length, ← free]
      exact fun same => new (NodeId.ext same)
    refine spelled i path ?_
    rw [List.getElem?_append] at atSlot
    split at atSlot
    · exact atSlot
    · have inside := (List.getElem?_eq_some_iff.mp atSlot).1
      rw [List.length_singleton] at inside
      omega

theorem setTerminal (spelled : trie.SpelledBy paths) (id : NodeId) (terminal : Terminal γ ε) :
    (trie.setTerminal id terminal).SpelledBy paths := by
  intro i path atSlot
  rw [argument?_setTerminal]
  exact spelled i path atSlot

end SpelledBy

/-- A literal has no description, so it is the argument of the child that is found under it. -/
theorem argument?_of_findChild?_literal {text : String}
    (found : trie.findChild? id (.literal text) = some child) :
    trie.argument? child = some (.literal text) := by
  obtain ⟨a, labelled, same⟩ := exists_argument?_of_findChild? found
  rw [labelled, literal_samePosition_iff.mp same.symm]

namespace WellFormed

/-- A child is not the root, so it has an argument. -/
theorem exists_argument?_of_mem (formed : trie.WellFormed) (mem : child ∈ trie.children id) :
    ∃ a, trie.argument? child = some a := by
  have proper : trie.argument? child ≠ none := by
    rw [Ne, formed.argument?_eq_none_iff child (trie.children_descend mem).2]
    exact ne_root_of_mem_children mem
  exact Option.ne_none_iff_exists'.mp proper

/-- A child is found under its own argument, as no other child has it. -/
theorem findChild?_eq_some (formed : trie.WellFormed) (mem : child ∈ trie.children id)
    (labelled : trie.argument? child = some argument) :
    trie.findChild? id argument = some child := by
  cases found : trie.findChild? id argument with
  | none =>
    have missed := List.find?_eq_none.mp found child mem
    simp [labelled, SamePosition.refl] at missed
  | some other =>
    obtain ⟨b, atOther, same⟩ := exists_argument?_of_findChild? found
    -- Were it another child, the two would denote different positions.
    by_contra differ
    have symmetric : Std.Symm fun i j : NodeId => ∀ a b, trie.argument? i = some a →
        trie.argument? j = some b → ¬ a.SamePosition b :=
      ⟨fun i j apart a b atJ atI => fun same => apart b a atI atJ same.symm⟩
    have apart := (formed.distinct id).forall (findChild?_mem found) mem
      fun same => differ (same ▸ rfl)
    exact apart b argument atOther labelled same

theorem exists_literal_child_iff {text : String} (formed : trie.WellFormed) :
    (∃ child ∈ trie.children id, trie.argument? child = some (.literal text)) ↔
      (trie.findChild? id (.literal text)).isSome := by
  rw [Option.isSome_iff_exists]
  constructor
  · rintro ⟨child, mem, labelled⟩
    exact ⟨child, formed.findChild?_eq_some mem labelled⟩
  · rintro ⟨child, found⟩
    exact ⟨child, findChild?_mem found, argument?_of_findChild?_literal found⟩

/-- The children of a node are the nodes whose paths are longer by one argument. -/
theorem mem_children_iff (formed : trie.WellFormed) (numbered : trie.Numbering paths) :
    child ∈ trie.children id ↔
      ∃ path a, trie.lookup? path = some id ∧ trie.lookup? (path ++ [a]) = some child := by
  constructor
  · intro mem
    have descends := trie.children_descend mem
    obtain ⟨path, leads⟩ := numbered.exists_lookup? (descends.1.trans descends.2)
    obtain ⟨a, labelled⟩ := formed.exists_argument?_of_mem mem
    refine ⟨path, a, leads, ?_⟩
    rw [lookup?_concat, leads]
    exact formed.findChild?_eq_some mem labelled
  · rintro ⟨path, a, leads, further⟩
    rw [lookup?_concat, leads] at further
    exact findChild?_mem further

/-- The children of a node are listed in the order in which their paths come up. -/
theorem children_eq_filterMap (formed : trie.WellFormed) (numbered : trie.Numbering paths)
    (leads : trie.lookup? base = some id) :
    trie.children id =
      (paths.filter fun path => decide (Continues base path)).filterMap trie.lookup? := by
  -- Both lists are ascending, so they are equal if their members are.
  have antisymmetric : Std.Antisymm fun i j : NodeId => i.index < j.index :=
    ⟨fun i j less less' => absurd less (lt_asymm less')⟩
  have irreflexive : Std.Irrefl fun i j : NodeId => i.index < j.index := ⟨fun i => lt_irrefl i.index⟩
  have ascending : ((paths.filter fun path => decide (Continues base path)).filterMap
      trie.lookup?).Pairwise fun i j => i.index < j.index :=
    List.pairwise_filterMap.mpr (numbered.pairwise_lookup?.filter _)
  refine (formed.ascending id).eq_of_mem_iff ascending fun child => ?_
  rw [formed.mem_children_iff numbered, List.mem_filterMap]
  constructor
  · rintro ⟨path, a, led, further⟩
    obtain ⟨listed, atSlot, same⟩ := (numbered.lookup?_iff _ child).mp further
    have continues : Continues base listed := by
      rw [← Continues.congr same, continues_iff]
      exact ⟨path, a, rfl, (numbered.leads_iff leads path).mp led⟩
    exact ⟨listed, List.mem_filter.mpr ⟨List.mem_of_getElem? atSlot, decide_eq_true continues⟩,
      numbered.lookup?_of_getElem? atSlot⟩
  · rintro ⟨listed, mem, found⟩
    obtain ⟨start, a, rfl, same⟩ :=
      continues_iff.mp (of_decide_eq_true (List.mem_filter.mp mem).2)
    exact ⟨start, a, (numbered.leads_iff leads start).mpr same, found⟩

/-- Two nodes from which the same steps can be made, the slots being moved by a fixed distance, have
the same children in the same order. -/
theorem map_index_children {γ' ε' : Type} {other : Trie γ' ε'} {otherPaths : List (List Argument)}
    {otherId : NodeId} (formed : trie.WellFormed) (numbered : trie.Numbering paths)
    (otherFormed : other.WellFormed) (otherNumbered : other.Numbering otherPaths) (distance : Nat)
    (alike : ∀ slot, (∃ path a child, trie.lookup? path = some id ∧
        trie.lookup? (path ++ [a]) = some child ∧ child.index = slot) ↔
      ∃ path a child, other.lookup? path = some otherId ∧
        other.lookup? (path ++ [a]) = some child ∧ distance + child.index = slot) :
    (trie.children id).map (·.index) =
      (other.children otherId).map fun child => distance + child.index := by
  -- Children are listed in the order of their slots, so the lists are equal if their members are.
  have ascending : ((trie.children id).map (·.index)).Pairwise (· < ·) :=
    List.pairwise_map.mpr (formed.ascending id)
  have otherAscending :
      ((other.children otherId).map fun child => distance + child.index).Pairwise (· < ·) :=
    List.pairwise_map.mpr ((otherFormed.ascending otherId).imp fun less => by omega)
  refine ascending.eq_of_mem_iff otherAscending fun slot => ?_
  simp only [List.mem_map, formed.mem_children_iff numbered,
    otherFormed.mem_children_iff otherNumbered]
  constructor
  · rintro ⟨child, ⟨path, a, leads, further⟩, here⟩
    obtain ⟨path', a', child', leads', further', here'⟩ :=
      (alike slot).mp ⟨path, a, child, leads, further, here⟩
    exact ⟨child', ⟨path', a', leads', further'⟩, here'⟩
  · rintro ⟨child, ⟨path, a, leads, further⟩, here⟩
    obtain ⟨path', a', child', leads', further', here'⟩ :=
      (alike slot).mpr ⟨path, a, child, leads, further, here⟩
    exact ⟨child', ⟨path', a', leads', further'⟩, here'⟩

end WellFormed

end Dispatch.Trie
