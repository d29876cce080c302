import Dispatch.Trie.Basic

/-!
# Traversals of the trie

Two ways through the nodes below a node: a recursion that gives every node the results of its
children, and a loop that keeps the nodes still to be visited in a stack. Both end because
children stand behind their parents.

## Main definitions

* `Trie.foldFrom` — recursion over the nodes from a node downwards
* `Trie.weight` — the number of nodes from a node downwards
* `Trie.visit` — the nodes of a stack and those below them, depth first, each node before its
  children
* `Trie.preorder` — all nodes in this order

## Main results

* `Trie.foldFrom_eq` — the recursion equation
-/

set_option autoImplicit false

namespace Dispatch.Trie

variable {γ ε : Type}

/-- Recursion over the trie: the value of a node is made from the values of its children. -/
def foldFrom {α : Type} (trie : Trie γ ε) (f : NodeId → List α → α) (id : NodeId) : α :=
  f id ((trie.children id).attach.map fun ⟨child, _⟩ => trie.foldFrom f child)
termination_by trie.size - id.index
decreasing_by
  rename_i h
  have := trie.children_descend h
  omega

theorem foldFrom_eq {α : Type} (trie : Trie γ ε) (f : NodeId → List α → α) (id : NodeId) :
    trie.foldFrom f id = f id ((trie.children id).map (trie.foldFrom f)) := by
  rw [foldFrom]
  simp

/-- The sum of some numbers. -/
def total (numbers : List Nat) : Nat := numbers.foldr (· + ·) 0

@[simp] theorem total_nil : total [] = 0 := rfl

@[simp] theorem total_cons (n : Nat) (numbers : List Nat) :
    total (n :: numbers) = n + total numbers := rfl

@[simp] theorem total_append (numbers others : List Nat) :
    total (numbers ++ others) = total numbers + total others := by
  induction numbers with
  | nil => simp
  | cons n numbers ih => simp [ih, Nat.add_assoc]

/-- The number of nodes from a node downwards, itself included. -/
def weight (trie : Trie γ ε) (id : NodeId) : Nat :=
  trie.foldFrom (fun _ weights => total weights + 1) id

theorem weight_eq (trie : Trie γ ε) (id : NodeId) :
    trie.weight id = total ((trie.children id).map trie.weight) + 1 :=
  trie.foldFrom_eq _ id

/-- The nodes of a stack and those below them, depth first: a node is taken from the stack and its
children are put in its place. -/
def visit (trie : Trie γ ε) : List NodeId → List NodeId
  | [] => []
  | id :: stack => id :: trie.visit (trie.children id ++ stack)
termination_by stack => total (stack.map trie.weight)
decreasing_by
  simp only [List.map_append, total_append, List.map_cons, total_cons]
  have := trie.weight_eq id
  omega

/-- All nodes, depth first, each one before its children. -/
def preorder (trie : Trie γ ε) : List NodeId := trie.visit [NodeId.root]

end Dispatch.Trie
