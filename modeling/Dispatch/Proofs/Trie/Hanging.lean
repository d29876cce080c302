import Dispatch.Proofs.Layout
import Dispatch.Proofs.Trie.Spelling

/-!
# Tries that hang in other tries

A trie hangs at a node of another one if its nodes, moved by a fixed distance, are the nodes from there
downwards. Only the argument of the topmost node is not that of a root.

Whether one trie hangs in another can be told from the lists of paths that number the two: the paths of
the one stand, prolonged by a first argument, in one piece among those of the other.

## Main definitions

* `Trie.HangsAt` — a trie is the part of another one from a node downwards

## Main results

* `Trie.hangsAt_of_paths` — a trie hangs where its paths stand in one piece
* `Trie.HangsAt.layout_eq` — below the topmost argument, the layouts are equal
-/

set_option autoImplicit false

namespace Dispatch

open Argument

variable {γ ε : Type}

namespace Trie

/-- The nodes of a trie from `top` downwards are those of `branch`, each of them moved by the slot of
`top`. What the argument of `top` is, is left open. -/
structure HangsAt (branch trie : Trie γ ε) (top : NodeId) : Prop where
  fits : top.index + branch.size ≤ trie.size
  argument?_eq : ∀ i j : NodeId, i.index < branch.size → j.index = top.index + i.index → i ≠ .root →
    trie.argument? j = branch.argument? i
  children_eq : ∀ i j : NodeId, i.index < branch.size → j.index = top.index + i.index →
    (trie.children j).map (·.index) = (branch.children i).map fun child => top.index + child.index
  terminal?_eq : ∀ i j : NodeId, i.index < branch.size → j.index = top.index + i.index →
    trie.terminal? j = branch.terminal? i

variable {branch trie : Trie γ ε} {top i j : NodeId} {argument : Argument}
  {paths branchPaths : List (List Argument)}

namespace HangsAt

/-- Nodes that have their place in both tries have children that do. -/
theorem map_children_eq {α : Type} {f g : NodeId → α} (hangs : branch.HangsAt trie top)
    (inside : i.index < branch.size) (moved : j.index = top.index + i.index)
    (same : ∀ child ∈ branch.children i, ∀ child' : NodeId,
      child'.index = top.index + child.index → f child' = g child) :
    (trie.children j).map f = (branch.children i).map g := by
  have slots := hangs.children_eq i j inside moved
  refine List.ext_getElem (by simpa using congrArg List.length slots) fun k here there => ?_
  rw [List.length_map] at here there
  rw [List.getElem_map, List.getElem_map]
  refine same _ (List.getElem_mem there) _ ?_
  have atSlot := congrArg (·[k]?) slots
  simpa [here, there] using atSlot

theorem ofNode_eq (hangs : branch.HangsAt trie top) (inside : i.index < branch.size)
    (moved : j.index = top.index + i.index) (proper : i ≠ .root) :
    Layout.ofNode trie j = Layout.ofNode branch i := by
  -- The children stand in later slots, so the induction is on the number of slots from the node on.
  induction left : branch.size - i.index using Nat.strong_induction_on generalizing i j with
  | _ _ ih =>
    have below : (trie.children j).map (Layout.ofNode trie) =
        (branch.children i).map (Layout.ofNode branch) := by
      refine hangs.map_children_eq inside moved fun child mem child' moved' => ?_
      have descends := branch.children_descend mem
      exact ih (branch.size - child.index) (by omega) descends.2 moved' (ne_root_of_mem_children mem) rfl
    rw [Layout.ofNode_eq, Layout.ofNode_eq, hangs.argument?_eq i j inside moved proper,
      hangs.terminal?_eq i j inside moved, below]

/-- The layout from the topmost node downwards is that of the branch, but for the topmost argument. -/
theorem layout_eq (hangs : branch.HangsAt trie top) :
    Layout.ofNode trie top = .node (trie.argument? top) branch.layout.hasGuard
      branch.layout.hasExecutor branch.layout.children := by
  have moved : top.index = top.index + NodeId.root.index := rfl
  have below : (trie.children top).map (Layout.ofNode trie) =
      (branch.children .root).map (Layout.ofNode branch) := by
    refine hangs.map_children_eq branch.nonempty moved fun child mem child' moved' => ?_
    exact hangs.ofNode_eq (branch.children_descend mem).2 moved' (ne_root_of_mem_children mem)
  rw [layout, Layout.ofNode_eq branch, Layout.ofNode_eq trie,
    hangs.terminal?_eq .root top branch.nonempty moved, below]
  rfl

end HangsAt

/-! ### Where the paths of a trie stand -/

section Placed

variable {front : List (List Argument)} {q : List Argument}

theorem getElem?_of_placed (placed : front ++ branchPaths.map (argument :: ·) <+: paths) {slot : Nat}
    (atSlot : branchPaths[slot]? = some q) : paths[front.length + slot]? = some (argument :: q) := by
  obtain ⟨more, rfl⟩ := placed
  have inside : slot < branchPaths.length := (List.getElem?_eq_some_iff.mp atSlot).1
  rw [List.append_assoc, List.getElem?_append_right (Nat.le_add_right _ _), Nat.add_sub_cancel_left,
    List.getElem?_append_left (by simpa using inside), List.getElem?_map, atSlot, Option.map_some]

theorem index_lt_capacity_of_placed (numbered : trie.Numbering paths)
    (branchNumbered : branch.Numbering branchPaths)
    (placed : front ++ branchPaths.map (argument :: ·) <+: paths) (inside : i.index < branch.size) :
    front.length + i.index < NodeId.capacity := by
  have room : front.length + branch.size ≤ trie.size := by
    rw [← numbered.length_eq, ← branchNumbered.length_eq]
    simpa using placed.length_le
  have := numbered.fits
  omega

theorem argument?_of_placed (branchNumbered : branch.Numbering branchPaths)
    (placed : front ++ branchPaths.map (argument :: ·) <+: paths)
    (spelled : trie.SpelledBy paths) (branchSpelled : branch.SpelledBy branchPaths)
    (inside : i.index < branch.size) (moved : j.index = front.length + i.index) (proper : i ≠ .root) :
    trie.argument? j = branch.argument? i := by
  have within : i.index < branchPaths.length := branchNumbered.length_eq ▸ inside
  have atSlot := List.getElem?_eq_getElem within
  have atSlot' := getElem?_of_placed placed atSlot
  rw [← moved] at atSlot'
  rw [branchSpelled i _ atSlot, spelled j _ atSlot']
  -- Only the root has the empty path, and any other path ends as it did before it was prolonged.
  cases path : branchPaths[i.index] with
  | nil =>
    rw [path] at atSlot
    have leads : branch.lookup? [] = some i := branchNumbered.lookup?_of_getElem? atSlot
    exact absurd (Option.some_inj.mp leads).symm proper
  | cons a rest => rw [List.getLast?_cons_cons]

variable (numbered : trie.Numbering paths) (branchNumbered : branch.Numbering branchPaths)
  (placed : front ++ branchPaths.map (argument :: ·) <+: paths)
  (only : ∀ q, Known paths (argument :: q) → Known branchPaths q)

include numbered branchNumbered placed only

/-- Behind the argument, the trie is followed as the branch is, the slots being moved. -/
theorem lookup?_cons_eq_some_iff : trie.lookup? (argument :: q) = some j ↔
    ∃ i, branch.lookup? q = some i ∧ j.index = front.length + i.index := by
  have forth : ∀ i j : NodeId, branch.lookup? q = some i → j.index = front.length + i.index →
      trie.lookup? (argument :: q) = some j := by
    intro i j leads moved
    obtain ⟨p, atSlot, same⟩ := (branchNumbered.lookup?_iff q i).mp leads
    refine (numbered.lookup?_iff _ j).mpr ⟨argument :: p, ?_, ?_⟩
    · rw [moved]
      exact getElem?_of_placed placed atSlot
    · exact samePath_cons_iff.mpr ⟨SamePosition.refl _, same⟩
  constructor
  · intro leads
    -- The rest of the path leads somewhere in the branch, and this place was moved to the node.
    have known : Known paths (argument :: q) :=
      numbered.isSome_lookup?_iff.mp (Option.isSome_iff_exists.mpr ⟨j, leads⟩)
    obtain ⟨i, found⟩ := Option.isSome_iff_exists.mp (branchNumbered.isSome_lookup?_iff.mpr (only q known))
    obtain ⟨p, atSlot, -⟩ := (branchNumbered.lookup?_iff q i).mp found
    have inside : front.length + i.index < trie.size :=
      numbered.length_eq ▸ (List.getElem?_eq_some_iff.mp (getElem?_of_placed placed atSlot)).1
    have leads' := forth i ⟨front.length + i.index, inside.trans_le numbered.fits⟩ found rfl
    exact ⟨i, found, congrArg NodeId.index (Option.some_inj.mp (leads.symm.trans leads'))⟩
  · rintro ⟨i, found, moved⟩
    exact forth i j found moved

theorem children_of_placed (formed : trie.WellFormed) (branchFormed : branch.WellFormed)
    (inside : i.index < branch.size) (moved : j.index = front.length + i.index) :
    (trie.children j).map (·.index) =
      (branch.children i).map fun child => front.length + child.index := by
  have moves {q : List Argument} {j : NodeId} : trie.lookup? (argument :: q) = some j ↔
      ∃ i, branch.lookup? q = some i ∧ j.index = front.length + i.index :=
    lookup?_cons_eq_some_iff numbered branchNumbered placed only
  obtain ⟨q, leads⟩ := branchNumbered.exists_lookup? inside
  have leads' : trie.lookup? (argument :: q) = some j := moves.mpr ⟨i, leads, moved⟩
  refine formed.map_index_children numbered branchFormed branchNumbered front.length fun slot => ?_
  constructor
  · rintro ⟨path, a, child, toNode, further, here⟩
    -- Whatever path leads to the node is the one through the argument.
    have same : SamePath path (argument :: q) := (numbered.leads_iff leads' path).mp toNode
    have longer : SamePath (path ++ [a]) (argument :: (q ++ [a])) :=
      samePath_concat_iff.mpr ⟨same, SamePosition.refl a⟩
    rw [lookup?_congr longer] at further
    obtain ⟨child', found, moved'⟩ := moves.mp further
    exact ⟨q, a, child', leads, found, moved'.symm.trans here⟩
  · rintro ⟨path, a, child, toNode, further, here⟩
    have fits := index_lt_capacity_of_placed numbered branchNumbered placed
      (lookup?_lt_size further)
    exact ⟨argument :: path, a, ⟨front.length + child.index, fits⟩, moves.mpr ⟨i, toNode, moved⟩,
      moves.mpr ⟨child, further, rfl⟩, here⟩

/-- A trie whose paths stand in one piece among those of another trie, prolonged by an argument that
starts no other path, hangs at the node of the argument, provided that the terminals are the same. -/
theorem hangsAt_of_paths (formed : trie.WellFormed) (branchFormed : branch.WellFormed)
    (spelled : trie.SpelledBy paths) (branchSpelled : branch.SpelledBy branchPaths)
    (terminals : ∀ q, trie.terminalAt? (argument :: q) = branch.terminalAt? q) :
    ∃ top, trie.lookup? [argument] = some top ∧ branch.HangsAt trie top ∧
      ∀ q, (trie.lookup? (argument :: q)).map (·.index) =
        (branch.lookup? q).map fun id => top.index + id.index := by
  have moves {q : List Argument} {j : NodeId} : trie.lookup? (argument :: q) = some j ↔
      ∃ i, branch.lookup? q = some i ∧ j.index = front.length + i.index :=
    lookup?_cons_eq_some_iff numbered branchNumbered placed only
  have small {i : NodeId} : i.index < branch.size → front.length + i.index < NodeId.capacity :=
    index_lt_capacity_of_placed numbered branchNumbered placed
  have topSmall : front.length < NodeId.capacity := small (i := .root) branch.nonempty
  refine ⟨⟨front.length, topSmall⟩, moves.mpr ⟨.root, lookup?_nil, rfl⟩, ⟨?_, ?_, ?_, ?_⟩, ?_⟩
  · rw [← numbered.length_eq, ← branchNumbered.length_eq]
    simpa using placed.length_le
  · intro i j inside moved proper
    exact argument?_of_placed branchNumbered placed spelled branchSpelled inside moved proper
  · intro i j inside moved
    exact children_of_placed numbered branchNumbered placed only formed branchFormed inside moved
  · intro i j inside moved
    obtain ⟨q, leads⟩ := branchNumbered.exists_lookup? inside
    have same := terminals q
    rw [terminalAt?, terminalAt?, leads, moves.mpr ⟨i, leads, moved⟩] at same
    exact same
  · intro q
    cases leads : branch.lookup? q with
    | none =>
      have missed : trie.lookup? (argument :: q) = none := by
        refine Option.eq_none_iff_forall_ne_some.mpr fun j leads' => ?_
        obtain ⟨i, found, -⟩ := moves.mp leads'
        simp [leads] at found
      rw [missed]
      rfl
    | some i =>
      have leads' : trie.lookup? (argument :: q) =
          some ⟨front.length + i.index, small (lookup?_lt_size leads)⟩ := moves.mpr ⟨i, leads, rfl⟩
      rw [leads']
      rfl

end Placed

end Trie

end Dispatch
