import Dispatch.Proofs.Layout
import Dispatch.Proofs.Trie.Route

/-!
# Walks through a trie

The nodes of a trie are visited by a loop that keeps a stack, and by recursions that make a layout and the
lines of the outline. All of them come by the nodes in the same order. In a well-formed trie they come by
every node once, since the nodes below a node are those whose routes go on from its route.

## Main definitions

* `Trie.advance` — what one round of the loop makes of the stack
* `Trie.below` — the nodes from a node downwards, by recursion
* `Trie.WalksAgree` — the loop, the layout and the outline come by the same nodes

## Main results

* `Trie.head?_advance_iterate` — what the loop yields in each round
* `Trie.visit_eq_flatMap` — the loop visits what the recursion lists
* `Trie.WellFormed.mem_below_iff`, `Trie.WellFormed.nodup_below` — which nodes are listed, each of them once
* `Trie.nodes_ofNode`, `Trie.WellFormed.forall₂_linesFrom` — the layouts and the lines in this order
-/

set_option autoImplicit false

namespace Dispatch

theorem forall₂_flatMap {α β δ : Type} {R : β → δ → Prop} {items : List α} {f : α → List β}
    {g : α → List δ} (related : ∀ item ∈ items, List.Forall₂ R (f item) (g item)) :
    List.Forall₂ R (items.flatMap f) (items.flatMap g) := by
  have pointwise : List.Forall₂ (fun item other => List.Forall₂ R (f item) (g other)) items items :=
    List.forall₂_same.mpr related
  exact List.rel_flatMap pointwise fun _ _ related => related

namespace Trie

open Argument

variable {γ ε : Type} {trie : Trie γ ε} {id i : NodeId} {path : List Argument}

/-- What holds of a node if it holds of all its children holds of every node. -/
@[elab_as_elim]
theorem descent_induct {motive : NodeId → Prop} (trie : Trie γ ε)
    (node : ∀ id, (∀ child ∈ trie.children id, motive child) → motive id) (id : NodeId) :
    motive id := by
  -- The children stand in later slots, so the induction is on the number of slots from the node on.
  induction left : trie.size - id.index using Nat.strong_induction_on generalizing id with
  | _ _ ih =>
    refine node id fun child mem => ih (trie.size - child.index) ?_ child rfl
    have := trie.children_descend mem
    omega

/-! ### The loop -/

/-- One round of the loop: the topmost node is taken from the stack, and its children are put in its
place. What the round yields is the node that was taken. -/
def advance (trie : Trie γ ε) : List NodeId → List NodeId
  | [] => []
  | id :: stack => trie.children id ++ stack

theorem visit_cons (id : NodeId) (stack : List NodeId) :
    trie.visit (id :: stack) = id :: trie.visit (trie.children id ++ stack) := by
  rw [visit]

/-- In every round the topmost node is the next one that is visited. -/
theorem head?_advance_iterate (k : Nat) (stack : List NodeId) :
    (trie.advance^[k] stack).head? = (trie.visit stack)[k]? := by
  induction k generalizing stack with
  | zero =>
    cases stack with
    | nil => simp [visit]
    | cons id stack => simp [visit_cons]
  | succ k ih =>
    rw [Function.iterate_succ_apply, ih]
    cases stack with
    | nil => simp [advance, visit]
    | cons id stack => rw [visit_cons, List.getElem?_cons_succ, advance]

/-- The stack is empty as soon as everything has been visited, and not before. -/
theorem advance_iterate_eq_nil_iff (k : Nat) (stack : List NodeId) :
    trie.advance^[k] stack = [] ↔ (trie.visit stack).length ≤ k := by
  rw [← List.head?_eq_none_iff, head?_advance_iterate, List.getElem?_eq_none_iff]

/-! ### The recursion -/

/-- The nodes from a node downwards, each one before its children. -/
def below (trie : Trie γ ε) (id : NodeId) : List NodeId :=
  trie.foldFrom (fun id lists => id :: lists.flatten) id

theorem below_eq (trie : Trie γ ε) (id : NodeId) :
    trie.below id = id :: (trie.children id).flatMap trie.below := by
  rw [below, foldFrom_eq, List.flatMap_def]
  rfl

/-- The loop visits the nodes of the stack one after the other, each of them with all that is below. -/
theorem visit_eq_flatMap (stack : List NodeId) : trie.visit stack = stack.flatMap trie.below := by
  induction stack using visit.induct trie with
  | case1 => rw [visit, List.flatMap_nil]
  | case2 id stack ih =>
    rw [visit_cons, ih, List.flatMap_append, List.flatMap_cons, below_eq trie id, List.cons_append]

theorem preorder_eq (trie : Trie γ ε) : trie.preorder = trie.below .root := by
  rw [preorder, visit_eq_flatMap, List.flatMap_singleton]

/-- The layouts below the nodes, in order, are the nodes of the layout. -/
theorem nodes_ofNode (trie : Trie γ ε) (id : NodeId) :
    (Layout.ofNode trie id).nodes = (trie.below id).map (Layout.ofNode trie) := by
  induction id using trie.descent_induct with
  | node id ih =>
    have children : (trie.children id).flatMap (fun child => (Layout.ofNode trie child).nodes) =
        (trie.children id).flatMap fun child => (trie.below child).map (Layout.ofNode trie) :=
      List.flatMap_congr ih
    rw [Layout.ofNode_eq, Layout.nodes, ← Layout.ofNode_eq, Layout.nodesOf_eq, List.flatMap_map,
      children, below_eq, List.map_cons, List.map_flatMap]

/-! ### Which nodes are listed -/

namespace WellFormed

/-- The nodes from a node downwards are those whose routes go on from its route. -/
theorem mem_below_iff (formed : trie.WellFormed) (route : trie.Route id path) :
    i ∈ trie.below id ↔ ∃ rest, trie.Route i (path ++ rest) := by
  induction id using trie.descent_induct generalizing path with
  | node id ih =>
    rw [below_eq, List.mem_cons, List.mem_flatMap]
    constructor
    · rintro (rfl | ⟨child, edge, mem⟩)
      · exact ⟨[], by simpa using route⟩
      · obtain ⟨a, labelled⟩ := formed.exists_argument?_of_mem edge
        obtain ⟨rest, further⟩ := (ih child edge (route.step edge labelled)).mp mem
        exact ⟨a :: rest, by simpa using further⟩
    · rintro ⟨rest, further⟩
      cases rest with
      | nil =>
        rw [List.append_nil] at further
        exact Or.inl (formed.node_unique further route)
      | cons a rest =>
        -- The route goes on through the child that is labelled with the next argument.
        rw [← List.singleton_append, ← List.append_assoc] at further
        obtain ⟨child, route'⟩ := further.exists_of_append
        obtain ⟨parent, above, edge, -⟩ := route'.exists_parent
        obtain rfl := formed.node_unique above route
        exact Or.inr ⟨child, edge, (ih child edge route').mpr ⟨rest, further⟩⟩

/-- No node is listed twice, as its route goes on from the route of at most one child. -/
theorem nodup_below (formed : trie.WellFormed) (route : trie.Route id path) :
    (trie.below id).Nodup := by
  induction id using trie.descent_induct generalizing path with
  | node id ih =>
    rw [below_eq, List.nodup_cons, List.mem_flatMap, List.nodup_flatMap]
    refine ⟨?_, ?_, ?_⟩
    · rintro ⟨child, edge, mem⟩
      obtain ⟨a, labelled⟩ := formed.exists_argument?_of_mem edge
      obtain ⟨rest, longer⟩ := (formed.mem_below_iff (route.step edge labelled)).mp mem
      have same := formed.route_unique route longer
      simp at same
    · intro child edge
      obtain ⟨a, labelled⟩ := formed.exists_argument?_of_mem edge
      exact ih child edge (route.step edge labelled)
    · refine (formed.distinct id).imp_of_mem fun {j k} edge edge' differ => ?_
      obtain ⟨a, labelled⟩ := formed.exists_argument?_of_mem edge
      obtain ⟨b, labelled'⟩ := formed.exists_argument?_of_mem edge'
      intro node mem mem'
      obtain ⟨rest, first⟩ := (formed.mem_below_iff (route.step edge labelled)).mp mem
      obtain ⟨rest', second⟩ := (formed.mem_below_iff (route.step edge' labelled')).mp mem'
      -- Both routes are the one of the node, so they go on with the same argument.
      have same := formed.route_unique first second
      obtain ⟨rfl, -⟩ : a = b ∧ rest = rest' := by simpa using same
      exact differ a a labelled labelled' (SamePosition.refl a)

theorem mem_preorder_iff (formed : trie.WellFormed) : id ∈ trie.preorder ↔ id.index < trie.size := by
  rw [preorder_eq, formed.mem_below_iff .root]
  constructor
  · rintro ⟨path, route⟩
    exact route.lt_size
  · intro inside
    exact formed.exists_route inside

theorem nodup_preorder (formed : trie.WellFormed) : trie.preorder.Nodup := by
  rw [preorder_eq]
  exact formed.nodup_below .root

/-- As many nodes are visited as there are. -/
theorem length_preorder (formed : trie.WellFormed) : trie.preorder.length = trie.size := by
  have slots : List.Perm (trie.preorder.map (·.index)) (List.range trie.size) := by
    apply (List.perm_ext_iff_of_nodup ?_ List.nodup_range).mpr
    · intro slot
      rw [List.mem_range, List.mem_map]
      constructor
      · rintro ⟨id, mem, rfl⟩
        exact formed.mem_preorder_iff.mp mem
      · intro inside
        have small : slot < NodeId.capacity := inside.trans_le formed.fits
        exact ⟨⟨slot, small⟩, formed.mem_preorder_iff.mpr inside, rfl⟩
    · exact formed.nodup_preorder.map fun _ _ same => NodeId.ext same
  simpa using slots.length_eq

end WellFormed

/-! ### The outline -/

/-- A line of the outline: two blanks for every level, and then what stands for the node. -/
def line (trie : Trie γ ε) (depth : Nat) (id : NodeId) : String :=
  String.ofList (List.replicate (2 * depth) ' ') ++ trie.label id

theorem linesFrom_eq (trie : Trie γ ε) (id : NodeId) (depth : Nat) :
    trie.linesFrom id depth =
      trie.line depth id :: (trie.children id).flatMap fun child => trie.linesFrom child (depth + 1) := by
  rw [linesFrom, foldFrom_eq, List.flatMap_map]
  rfl

/-- The lines of the outline are those of the nodes in order, each node being as deep as its route is
long. -/
theorem WellFormed.forall₂_linesFrom (formed : trie.WellFormed) (route : trie.Route id path) :
    List.Forall₂ (fun node text => ∃ path, trie.Route node path ∧ text = trie.line path.length node)
      (trie.below id) (trie.linesFrom id path.length) := by
  induction id using trie.descent_induct generalizing path with
  | node id ih =>
    rw [below_eq, linesFrom_eq]
    refine .cons ⟨path, route, rfl⟩ (forall₂_flatMap fun child edge => ?_)
    obtain ⟨a, labelled⟩ := formed.exists_argument?_of_mem edge
    simpa using ih child edge (route.step edge labelled)

/-! ### Agreement -/

/-- The loop, the layout and the outline come by the nodes in the same order, each of them once. -/
structure WalksAgree (trie : Trie γ ε) : Prop where
  /-- the loop yields the nodes in order, one in each round -/
  yields : ∀ k, (trie.advance^[k] [.root]).head? = trie.preorder[k]?
  /-- the loop ends after as many rounds as there are nodes -/
  ends : ∀ k, trie.advance^[k] [.root] = [] ↔ trie.size ≤ k
  /-- every node comes up once, and nothing else does -/
  each_once : ∀ id, trie.preorder.count id = if id.index < trie.size then 1 else 0
  /-- the records of the layout, each one before those below it, are the layouts of the nodes in order -/
  nodes_layout : trie.layout.nodes = trie.preorder.map (Layout.ofNode trie)
  /-- a record shows the argument of its node and which parts of a terminal the node has -/
  record : ∀ (k : Nat) (id : NodeId), trie.preorder[k]? = some id → ∃ record : Layout,
      trie.layout.nodes[k]? = some record ∧ record.argument = trie.argument? id ∧
      record.hasGuard = (trie.terminal? id).any (·.guard.isSome) ∧
      record.hasExecutor = (trie.terminal? id).any (·.executor.isSome) ∧
      record.hasTerminal = (trie.terminal? id).isSome
  /-- the layout has as many records as there are nodes -/
  size_layout : trie.layout.size = trie.size
  /-- the outline has a line for each node in order, indented by two blanks for each argument of the
  route of the node -/
  text_eq : ∃ lines : List String, trie.text = String.join (lines.map (· ++ "\n")) ∧
    lines.length = trie.size ∧ ∀ (k : Nat) (id : NodeId) (path : List Argument),
      trie.preorder[k]? = some id → trie.Route id path → lines[k]? = some (trie.line path.length id)

end Trie

end Dispatch
