import Dispatch.Layout.Basic
import Mathlib.Data.List.Forall2

/-!
# The nodes of a layout

What the recursive functions on layouts say about the topmost node and the layouts below it, and what a
layout shows of the node of a trie that it was made from.

## Main results

* `Layout.induct` — what holds of a layout if it holds of those directly below holds of all layouts
* `Layout.size_eq_length_nodes` — the size is the number of nodes
* `Layout.same_node_iff` — which layouts are the same, node by node
* `Layout.ofNode_eq` — the layout of a node by its parts
* `Layout.hasTerminal_ofNode` — a terminal shows as a guard or an executor
-/

set_option autoImplicit false

namespace Dispatch.Layout

variable {γ ε : Type}

/-! ### Recursion -/

/-- What holds of a layout if it holds of those directly below it holds of every layout. -/
@[elab_as_elim, induction_eliminator]
theorem induct {motive : Layout → Prop}
    (node : ∀ argument hasGuard hasExecutor children, (∀ child ∈ children, motive child) →
      motive (node argument hasGuard hasExecutor children)) (layout : Layout) : motive layout :=
  match layout with
  | .node argument hasGuard hasExecutor children =>
    node argument hasGuard hasExecutor children fun child _ => induct node child

theorem nodesOf_eq (layouts : List Layout) : nodesOf layouts = layouts.flatMap nodes := by
  induction layouts with
  | nil => rfl
  | cons layout layouts ih => rw [nodesOf, ih, List.flatMap_cons]

/-- What holds of all nodes of a layout holds of the topmost one and of all nodes below. -/
theorem forall_mem_nodes_iff {P : Layout → Prop} {argument : Option Argument} {hasGuard hasExecutor : Bool}
    {children : List Layout} :
    (∀ part ∈ (node argument hasGuard hasExecutor children).nodes, P part) ↔
      P (node argument hasGuard hasExecutor children) ∧ ∀ child ∈ children, ∀ part ∈ child.nodes, P part := by
  rw [nodes, nodesOf_eq, List.forall_mem_cons]
  simp only [List.mem_flatMap, forall_exists_index, and_imp]
  exact and_congr_right fun _ => ⟨fun all child mem part inside => all part child mem inside,
    fun all part child mem inside => all child mem part inside⟩

mutual

/-- The size of a layout is the number of its nodes. -/
theorem size_eq_length_nodes : ∀ layout : Layout, layout.size = layout.nodes.length
  | .node argument hasGuard hasExecutor children => by
    rw [size, nodes, List.length_cons, sizes_eq_length_nodesOf children, Nat.add_comm]

theorem sizes_eq_length_nodesOf : ∀ layouts : List Layout, sizes layouts = (nodesOf layouts).length
  | [] => rfl
  | layout :: layouts => by
    rw [sizes, nodesOf, List.length_append, size_eq_length_nodes layout,
      sizes_eq_length_nodesOf layouts]

end

theorem allSame_iff {layouts others : List Layout} :
    allSame layouts others = true ↔ List.Forall₂ (fun layout other => layout.same other) layouts others := by
  induction layouts generalizing others with
  | nil => cases others <;> simp [allSame]
  | cons layout layouts ih => cases others <;> simp [allSame, ih]

/-- Layouts are the same if their topmost nodes are, and so are the layouts below them, one by one. -/
theorem same_node_iff {argument argument' : Option Argument}
    {hasGuard hasGuard' hasExecutor hasExecutor' : Bool} {children children' : List Layout} :
    (node argument hasGuard hasExecutor children).same
        (node argument' hasGuard' hasExecutor' children') ↔
      argument.map Argument.position = argument'.map Argument.position ∧ hasGuard = hasGuard' ∧
        hasExecutor = hasExecutor' ∧
          List.Forall₂ (fun child child' => child.same child') children children' := by
  rw [same, ← allSame_iff]
  simp only [Bool.and_eq_true, decide_eq_true_eq, beq_iff_eq, and_assoc]

/-! ### Layouts of tries -/

/-- The layout of a node by its parts. -/
theorem ofNode_eq (trie : Trie γ ε) (id : NodeId) :
    ofNode trie id =
      .node (trie.argument? id) ((trie.terminal? id).any (·.guard.isSome))
        ((trie.terminal? id).any (·.executor.isSome)) ((trie.children id).map (ofNode trie)) := by
  have marks : (trie.node? id).any Node.hasGuard = (trie.terminal? id).any (·.guard.isSome) ∧
      (trie.node? id).any Node.hasExecutor = (trie.terminal? id).any (·.executor.isSome) := by
    rw [Trie.terminal?]
    cases trie.node? id with
    | none => exact ⟨rfl, rfl⟩
    | some node => exact ⟨rfl, rfl⟩
  rw [ofNode, Trie.foldFrom_eq, marks.1, marks.2]
  rfl

variable (trie : Trie γ ε) (id : NodeId)

@[simp] theorem argument_ofNode : (ofNode trie id).argument = trie.argument? id := by
  rw [ofNode_eq, argument]

@[simp] theorem hasGuard_ofNode :
    (ofNode trie id).hasGuard = (trie.terminal? id).any (·.guard.isSome) := by
  rw [ofNode_eq, hasGuard]

@[simp] theorem hasExecutor_ofNode :
    (ofNode trie id).hasExecutor = (trie.terminal? id).any (·.executor.isSome) := by
  rw [ofNode_eq, hasExecutor]

/-- A terminal has a guard or an executor, so it shows in the layout. -/
theorem hasTerminal_ofNode : (ofNode trie id).hasTerminal = (trie.terminal? id).isSome := by
  rw [hasTerminal, hasGuard_ofNode, hasExecutor_ofNode]
  cases trie.terminal? id with
  | none => rfl
  | some terminal => exact terminal.present

end Dispatch.Layout
