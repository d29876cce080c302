import Dispatch.Proofs.Trie.Change

/-!
# The numbering of nodes by paths

Which paths can be followed in a trie, and to which slot each of them leads, is told by one list: the
path of the node in slot `k` is the `k`-th of the list. Both changes of a trie keep such a list;
appending a node enters its path behind the others.

## Main definitions

* `Trie.Numbering` — the nodes of a trie are, slot by slot, the ends of the paths in a list

## Main results

* `Trie.Numbering.leads_iff` — a node is the end of one path only
* `Trie.Numbering.pairwise_lookup?` — slots are in the order of the paths
* `Trie.Numbering.isSome_lookup?_iff` — the paths that can be followed are those in the list
* `Trie.Numbering.insertChild`, `Trie.Numbering.setTerminal` — the two changes
-/

set_option autoImplicit false

namespace Dispatch.Trie

open Argument

variable {γ ε : Type} {trie : Trie γ ε} {parent id : NodeId} {argument : Argument}
  {path base : List Argument} {paths : List (List Argument)}

/-- The nodes of a trie are the ends of the paths in a list, slot by slot. -/
structure Numbering (trie : Trie γ ε) (paths : List (List Argument)) : Prop where
  length_eq : paths.length = trie.size
  fits : trie.size ≤ NodeId.capacity
  lookup?_iff : ∀ path id,
    trie.lookup? path = some id ↔ ∃ p, paths[id.index]? = some p ∧ SamePath path p

private theorem getElem?_concat_eq_some_iff {α : Type} {items : List α} {last item : α} {k : Nat} :
    (items ++ [last])[k]? = some item ↔
      items[k]? = some item ∨ k = items.length ∧ last = item := by
  rw [List.getElem?_append]
  split
  · simp
    omega
  · rename_i outside
    rw [List.getElem?_eq_none (not_lt.mp outside)]
    simp [List.getElem?_singleton]
    omega

namespace Numbering

theorem empty : Numbering (Trie.empty : Trie γ ε) [[]] where
  length_eq := rfl
  fits := by simp [NodeId.capacity]
  lookup?_iff := by
    intro path id
    rcases List.eq_nil_or_concat path with rfl | ⟨path, a, rfl⟩
    · rw [lookup?_nil, Option.some_inj]
      constructor
      · rintro rfl
        exact ⟨[], rfl, SamePath.refl []⟩
      · rintro ⟨p, found, -⟩
        have first : id.index < 1 := (List.getElem?_eq_some_iff.mp found).1
        exact NodeId.ext (by simp [NodeId.root]; omega)
    · have leaf : ∀ i : NodeId, (Trie.empty : Trie γ ε).findChild? i a = none := fun i => by
        rw [findChild?, children_empty, List.find?_nil]
      have nowhere : (Trie.empty : Trie γ ε).lookup? (path ++ [a]) = none := by
        simp [lookup?_concat, leaf]
      rw [List.concat_eq_append, nowhere]
      simp [List.getElem?_singleton]

theorem leads_iff (numbered : Numbering trie paths) (found : trie.lookup? base = some id)
    (path : List Argument) : trie.lookup? path = some id ↔ SamePath path base := by
  obtain ⟨p, atSlot, same⟩ := (numbered.lookup?_iff base id).mp found
  rw [numbered.lookup?_iff]
  constructor
  · rintro ⟨q, atSlot', same'⟩
    obtain rfl : p = q := Option.some_inj.mp (atSlot.symm.trans atSlot')
    exact same'.trans same.symm
  · intro same'
    exact ⟨p, atSlot, same'.trans same⟩

/-- A path in the list leads to its slot. -/
theorem lookup?_of_getElem? (numbered : Numbering trie paths) (atSlot : paths[id.index]? = some path) :
    trie.lookup? path = some id :=
  (numbered.lookup?_iff path id).mpr ⟨path, atSlot, SamePath.refl path⟩

/-- Paths further back in the list lead to slots further back in the arena. -/
theorem pairwise_lookup? (numbered : Numbering trie paths) :
    paths.Pairwise fun p q => ∀ i, trie.lookup? p = some i → ∀ j, trie.lookup? q = some j →
      i.index < j.index := by
  have slot {k : Nat} (inside : k < paths.length) {i : NodeId}
      (found : trie.lookup? paths[k] = some i) : i.index = k := by
    have small : k < NodeId.capacity := by
      have := numbered.length_eq
      have := numbered.fits
      omega
    have here : trie.lookup? paths[k] = some ⟨k, small⟩ :=
      numbered.lookup?_of_getElem? (List.getElem?_eq_getElem inside)
    rw [Option.some_inj.mp (found.symm.trans here)]
  rw [List.pairwise_iff_getElem]
  intro m n insideM insideN less i foundI j foundJ
  rw [slot insideM foundI, slot insideN foundJ]
  exact less

/-- Every slot is the end of a path. -/
theorem exists_lookup? (numbered : Numbering trie paths) (valid : id.index < trie.size) :
    ∃ path, trie.lookup? path = some id := by
  have inside : id.index < paths.length := numbered.length_eq ▸ valid
  exact ⟨paths[id.index], numbered.lookup?_of_getElem? (List.getElem?_eq_getElem inside)⟩

theorem isSome_lookup?_iff (numbered : Numbering trie paths) :
    (trie.lookup? path).isSome ↔ Known paths path := by
  rw [Option.isSome_iff_exists]
  constructor
  · rintro ⟨id, found⟩
    obtain ⟨p, atSlot, same⟩ := (numbered.lookup?_iff path id).mp found
    exact ⟨p, List.mem_of_getElem? atSlot, same⟩
  · rintro ⟨p, mem, same⟩
    obtain ⟨index, inside, rfl⟩ := List.mem_iff_getElem.mp mem
    have small : index < NodeId.capacity := by
      have := numbered.length_eq
      have := numbered.fits
      omega
    exact ⟨⟨index, small⟩, (numbered.lookup?_iff _ _).mpr
      ⟨_, List.getElem?_eq_getElem inside, same⟩⟩

/-- A node that is found or missing at an argument tells whether the longer path is known. -/
theorem known_concat_iff (numbered : Numbering trie paths) (found : trie.lookup? base = some parent) :
    Known paths (base ++ [argument]) ↔ (trie.findChild? parent argument).isSome := by
  rw [← numbered.isSome_lookup?_iff, lookup?_concat, found, Option.bind_some]

theorem insertChild (numbered : Numbering trie paths) (found : trie.lookup? base = some parent)
    (absent : trie.findChild? parent argument = none) (free : id.index = trie.size) :
    Numbering (trie.insertChild parent argument id free) (enter paths (base ++ [argument])) := by
  have unknown : ¬ Known paths (base ++ [argument]) := by
    rw [numbered.known_concat_iff found, absent]
    exact Bool.false_ne_true
  -- The path of the new node comes last in the list, as the node comes last in the arena.
  have entered : enter paths (base ++ [argument]) = paths ++ [base ++ [argument]] := if_neg unknown
  rw [entered]
  refine ⟨?_, ?_, ?_⟩
  · rw [size_insertChild, List.length_append, numbered.length_eq]
    rfl
  · rw [size_insertChild, ← free]
    exact id.index_lt
  · intro path i
    rw [lookup?_insertChild free (numbered.leads_iff found) absent]
    have atSlot : ∀ p, (paths ++ [base ++ [argument]])[i.index]? = some p ↔
        paths[i.index]? = some p ∨ id = i ∧ base ++ [argument] = p := by
      intro p
      rw [getElem?_concat_eq_some_iff, NodeId.ext_iff, free, numbered.length_eq, eq_comm (a := trie.size)]
    simp only [atSlot, or_and_right, exists_or, ← numbered.lookup?_iff]
    by_cases new : SamePath path (base ++ [argument])
    · have unreached : trie.lookup? path = none := lookup?_eq_none_of_absent found absent new
      simp [new, unreached]
    · simp [new]

theorem setTerminal (numbered : Numbering trie paths) (terminal : Terminal γ ε) :
    Numbering (trie.setTerminal id terminal) paths where
  length_eq := by rw [size_setTerminal, numbered.length_eq]
  fits := by simpa using numbered.fits
  lookup?_iff := by simpa using numbered.lookup?_iff

end Numbering

end Dispatch.Trie
