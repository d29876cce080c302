import Dispatch.Proofs.Trie.Change

/-!
# Well-formed tries

What every dispatch trie satisfies that was made by the two changes: it is a tree whose nodes stand in
the order in which they were appended, and no two children of a node denote the same position.

## Main definitions

* `Trie.WellFormed` — the arena is a tree of nodes with distinct children

## Main results

* `Trie.WellFormed.empty`, `Trie.WellFormed.insertChild`, `Trie.WellFormed.setTerminal` — the trie
  that has only a root is well formed, and both changes keep a trie so
-/

set_option autoImplicit false

namespace Dispatch.Trie

open Argument

variable {γ ε : Type} {trie : Trie γ ε} {parent id child : NodeId} {argument : Argument}
  {terminal : Terminal γ ε}

/-- The arena is a tree of nodes with distinct children. -/
structure WellFormed (trie : Trie γ ε) : Prop where
  /-- the first slot exists -/
  nonempty : 0 < trie.size
  /-- every slot has a number -/
  fits : trie.size ≤ NodeId.capacity
  /-- the root is the only node without an argument -/
  argument?_eq_none_iff : ∀ id, id.index < trie.size → (trie.argument? id = none ↔ id = .root)
  /-- a child stands in a slot behind its parent -/
  descends : ∀ id, ∀ child ∈ trie.children id, id.index < child.index ∧ child.index < trie.size
  /-- every other node than the root is listed once, by one parent -/
  listed_once : ∀ id, id.index < trie.size → id ≠ .root →
    ∃ parent, (trie.children parent).count id = 1 ∧ ∀ other, id ∈ trie.children other → other = parent
  /-- children are listed in the order of their slots -/
  ascending : ∀ id, (trie.children id).Pairwise fun i j => i.index < j.index
  /-- no two children of a node denote the same position -/
  distinct : ∀ id, (trie.children id).Pairwise fun i j => ∀ a b,
    trie.argument? i = some a → trie.argument? j = some b → ¬ a.SamePosition b
  /-- a terminal has a guard or an executor -/
  present : ∀ id terminal, trie.terminal? id = some terminal →
    terminal.guard.isSome ∨ terminal.executor.isSome

theorem present_of_terminal (terminal : Terminal γ ε) :
    terminal.guard.isSome ∨ terminal.executor.isSome := by
  simpa using terminal.present

namespace WellFormed

theorem empty : WellFormed (Trie.empty : Trie γ ε) := by
  refine ⟨Nat.one_pos, by simp [NodeId.capacity], ?_, ?_, ?_, ?_, ?_, ?_⟩
  · intro id inside
    exact iff_of_true (argument?_empty id) (eq_root_of_lt_empty inside)
  · simp
  · intro id inside other
    exact absurd (eq_root_of_lt_empty inside) other
  · simp
  · simp
  · exact fun _ terminal _ => present_of_terminal terminal

theorem setTerminal (formed : trie.WellFormed) (id : NodeId) (terminal : Terminal γ ε) :
    (trie.setTerminal id terminal).WellFormed where
  nonempty := by simpa using formed.nonempty
  fits := by simpa using formed.fits
  argument?_eq_none_iff := by simpa using formed.argument?_eq_none_iff
  descends := by simpa using formed.descends
  listed_once := by simpa using formed.listed_once
  ascending := by simpa using formed.ascending
  distinct := by simpa using formed.distinct
  present := fun _ terminal _ => present_of_terminal terminal

section InsertChild

variable (free : id.index = trie.size)

/-- The new node is listed by the node below which it was appended, and all others where they were. -/
theorem listed_once_insertChild (formed : trie.WellFormed) (valid : parent.index < trie.size)
    (i : NodeId) (inside : i.index < trie.size + 1) (other : i ≠ .root) :
    ∃ p, ((trie.insertChild parent argument id free).children p).count i = 1 ∧
      ∀ q, i ∈ (trie.insertChild parent argument id free).children q → q = p := by
  have unlisted : ∀ p, id ∉ trie.children p := by
    intro p mem
    have := (trie.children_descend mem).2
    omega
  by_cases new : i = id
  · -- Nobody lists the new node yet, so its parent lists it once and is the only one to do so.
    subst new
    refine ⟨parent, ?_, ?_⟩
    · rw [children_insertChild free valid, if_pos rfl, List.count_append,
        List.count_eq_zero_of_not_mem (unlisted parent)]
      simp
    · intro q mem
      rw [children_insertChild free valid] at mem
      by_contra elsewhere
      rw [if_neg elsewhere] at mem
      exact unlisted q mem
  · -- Any other node keeps its parent, as only the new node was added to a list.
    have old : i.index < trie.size := by
      have : i.index ≠ id.index := fun same => new (NodeId.ext same)
      omega
    obtain ⟨p, once, unique⟩ := formed.listed_once i old other
    refine ⟨p, ?_, fun q mem => unique q ?_⟩
    · rw [children_insertChild free valid]
      split
      · rw [List.count_append, once]
        simp [Ne.symm new]
      · exact once
    · rw [children_insertChild free valid] at mem
      split at mem
      · simpa [new] using mem
      · exact mem

theorem ascending_insertChild (formed : trie.WellFormed) (valid : parent.index < trie.size)
    (i : NodeId) :
    ((trie.insertChild parent argument id free).children i).Pairwise fun j k => j.index < k.index := by
  rw [children_insertChild free valid]
  split
  · refine List.pairwise_append.mpr ⟨formed.ascending i, List.pairwise_singleton _ _, ?_⟩
    intro child mem last isLast
    rw [List.mem_singleton.mp isLast, free]
    exact (trie.children_descend mem).2
  · exact formed.ascending i

theorem distinct_insertChild (formed : trie.WellFormed) (valid : parent.index < trie.size)
    (absent : trie.findChild? parent argument = none) (i : NodeId) :
    ((trie.insertChild parent argument id free).children i).Pairwise fun j k => ∀ a b,
      (trie.insertChild parent argument id free).argument? j = some a →
      (trie.insertChild parent argument id free).argument? k = some b → ¬ a.SamePosition b := by
  have old : (trie.children i).Pairwise fun j k => ∀ a b,
      (trie.insertChild parent argument id free).argument? j = some a →
      (trie.insertChild parent argument id free).argument? k = some b → ¬ a.SamePosition b := by
    refine (formed.distinct i).imp_of_mem fun {j k} memJ memK differ => ?_
    rw [argument?_insertChild_of_mem free memJ, argument?_insertChild_of_mem free memK]
    exact differ
  rw [children_insertChild free valid]
  split
  · rename_i here
    refine List.pairwise_append.mpr ⟨old, List.pairwise_singleton _ _, ?_⟩
    intro child mem last isLast a b atChild atLast
    -- The search for the argument missed every child that was there.
    rw [List.mem_singleton.mp isLast, argument?_insertChild, if_pos rfl] at atLast
    rw [argument?_insertChild_of_mem free mem] at atChild
    obtain rfl := Option.some_inj.mp atLast
    have missed := List.find?_eq_none.mp absent child (here ▸ mem)
    simpa [atChild] using missed
  · exact old

theorem insertChild (formed : trie.WellFormed) (valid : parent.index < trie.size)
    (absent : trie.findChild? parent argument = none) :
    (trie.insertChild parent argument id free).WellFormed where
  nonempty := by simp
  fits := by
    rw [size_insertChild, ← free]
    exact id.index_lt
  argument?_eq_none_iff := by
    intro i inside
    rw [size_insertChild] at inside
    rw [argument?_insertChild]
    split
    · rename_i new
      have behind : i ≠ .root := by
        have := formed.nonempty
        rintro rfl
        rw [← new] at free
        simp [NodeId.root] at free
        omega
      simp [behind]
    · rename_i old
      have : i.index ≠ id.index := fun same => old (NodeId.ext same)
      exact formed.argument?_eq_none_iff i (by omega)
  descends := fun _ _ mem => children_descend _ mem
  listed_once := by
    intro i inside other
    rw [size_insertChild] at inside
    exact listed_once_insertChild free formed valid i inside other
  ascending := ascending_insertChild free formed valid
  distinct := distinct_insertChild free formed valid absent
  present := fun _ terminal _ => present_of_terminal terminal

end InsertChild

end WellFormed

end Dispatch.Trie
