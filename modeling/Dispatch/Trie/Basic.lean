import Dispatch.Argument.Basic
import Dispatch.Terminal

/-!
# The dispatch trie

Nodes are kept in the slots of an arena, the root in the first one. Every node but the root has an
argument, and a path of arguments leads from the root to at most one node. There are no more slots
than a word of 32 bits can number.

A child always stands behind its parent in the arena. This is part of the type, so that a walk down
the trie ends.

## Main definitions

* `NodeId` — the number of a slot
* `Node` — an argument, the children in order of insertion, and perhaps a terminal
* `Trie` — an arena whose children stand behind their parents
* `Trie.findChild?`, `Trie.lookup?` — following one argument, following a path
* `Trie.insertChild`, `Trie.setTerminal` — the two ways in which a trie changes

## Main results

* `Trie.size_insertChild`, `Trie.size_setTerminal` — how each change affects the number of nodes
-/

set_option autoImplicit false

namespace Dispatch

/-- The number of slots that an arena can have: those that a word of 32 bits can number. -/
def NodeId.capacity : Nat := 4294967296

/-- The number of a slot of an arena. -/
structure NodeId where
  index : Nat
  index_lt : index < NodeId.capacity
deriving DecidableEq

namespace NodeId

/-- The slot of the root. -/
def root : NodeId := ⟨0, by decide⟩

/-- The slot with a given index, if there is one. -/
def ofIndex? (index : Nat) : Option NodeId :=
  if h : index < capacity then some ⟨index, h⟩ else none

/-- How the number of a slot is written. -/
def display (id : NodeId) : String := "NodeId(" ++ toString id.index ++ ")"

@[ext] theorem ext {i j : NodeId} (h : i.index = j.index) : i = j := by
  cases i; cases j; simp_all

theorem ofIndex?_of_lt {index : Nat} (h : index < capacity) : ofIndex? index = some ⟨index, h⟩ :=
  dif_pos h

theorem ofIndex?_of_le {index : Nat} (h : capacity ≤ index) : ofIndex? index = none :=
  dif_neg (Nat.not_lt.mpr h)

/-- A slot is found only under its own index. -/
theorem index_of_ofIndex? {index : Nat} {id : NodeId} (h : ofIndex? index = some id) :
    id.index = index := by
  unfold ofIndex? at h
  split at h
  · exact congrArg NodeId.index (Option.some.inj h).symm
  · simp at h

end NodeId

/-- A node of the trie. -/
structure Node (γ ε : Type) where
  /-- absent only at the root -/
  argument : Option Argument
  /-- in the order in which they were inserted -/
  children : List NodeId
  terminal : Option (Terminal γ ε)
deriving DecidableEq

namespace Node

variable {γ ε : Type}

/-- A node that has neither children nor a terminal yet. -/
def fresh (argument : Option Argument) : Node γ ε := ⟨argument, [], none⟩

/-- Adds a child behind the others. -/
def addChild (id : NodeId) (node : Node γ ε) : Node γ ε :=
  { node with children := node.children ++ [id] }

/-- Whether a guard stands at the node. -/
def hasGuard (node : Node γ ε) : Bool := node.terminal.any (·.guard.isSome)

/-- Whether an executor stands at the node. -/
def hasExecutor (node : Node γ ε) : Bool := node.terminal.any (·.executor.isSome)

end Node

/-- An arena of nodes in which every child stands behind its parent. -/
structure Trie (γ ε : Type) where
  nodes : Array (Node γ ε)
  nonempty : 0 < nodes.size
  descends : ∀ (i : Nat) (h : i < nodes.size), ∀ child ∈ nodes[i].children,
    i < child.index ∧ child.index < nodes.size

namespace Trie

variable {γ ε : Type}

/-- The trie that has only a root. -/
def empty : Trie γ ε where
  nodes := #[Node.fresh none]
  nonempty := by simp
  descends := by
    intro i h child hc
    obtain rfl : i = 0 := by simpa using h
    simp [Node.fresh] at hc

/-- The number of nodes. -/
def size (trie : Trie γ ε) : Nat := trie.nodes.size

/-- The node in a slot. -/
def node? (trie : Trie γ ε) (id : NodeId) : Option (Node γ ε) := trie.nodes[id.index]?

/-- The children of a node, in order of insertion. -/
def children (trie : Trie γ ε) (id : NodeId) : List NodeId :=
  match trie.node? id with
  | some node => node.children
  | none => []

/-- The argument of a node. -/
def argument? (trie : Trie γ ε) (id : NodeId) : Option Argument :=
  (trie.node? id).bind (·.argument)

/-- The terminal of a node. -/
def terminal? (trie : Trie γ ε) (id : NodeId) : Option (Terminal γ ε) :=
  (trie.node? id).bind (·.terminal)

/-- The child of a node whose argument denotes the same position as the given one. -/
def findChild? (trie : Trie γ ε) (id : NodeId) (argument : Argument) : Option NodeId :=
  (trie.children id).find? fun child =>
    (trie.argument? child).any fun other => decide (other.SamePosition argument)

/-- The node to which a path leads from the root. -/
def lookup? (trie : Trie γ ε) (path : List Argument) : Option NodeId :=
  path.foldlM trie.findChild? NodeId.root

theorem children_descend (trie : Trie γ ε) {id child : NodeId} (h : child ∈ trie.children id) :
    id.index < child.index ∧ child.index < trie.size := by
  unfold children node? at h
  split at h
  · rename_i node hn
    obtain ⟨hi, rfl⟩ := Array.getElem?_eq_some_iff.mp hn
    exact trie.descends id.index hi child h
  · simp at h

/-- Appends a node for an argument, as the last child of `parent`. Its slot is the first free
one. -/
def insertChild (trie : Trie γ ε) (parent : NodeId) (argument : Argument) (id : NodeId)
    (fits : id.index = trie.size) : Trie γ ε where
  nodes := (trie.nodes.modify parent.index (Node.addChild id)).push (.fresh (some argument))
  nonempty := by simp
  descends := by
    intro i h child hc
    have hid : id.index = trie.nodes.size := fits
    simp only [Array.size_push, Array.size_modify] at h ⊢
    by_cases hi : i < trie.nodes.size
    · rw [Array.getElem_push_lt (by simpa using hi), Array.getElem_modify] at hc
      have old := trie.descends i hi child
      split at hc
      · simp only [Node.addChild, List.mem_append, List.mem_singleton] at hc
        rcases hc with hc | rfl
        · exact ⟨(old hc).1, by have := (old hc).2; omega⟩
        · omega
      · exact ⟨(old hc).1, by have := (old hc).2; omega⟩
    · obtain rfl : i = trie.nodes.size := by omega
      simp [Array.getElem_push, Node.fresh] at hc

/-- Puts a terminal at a node, whatever stood there before. -/
def setTerminal (trie : Trie γ ε) (id : NodeId) (terminal : Terminal γ ε) : Trie γ ε where
  nodes := trie.nodes.modify id.index fun node => { node with terminal := some terminal }
  nonempty := by simpa using trie.nonempty
  descends := by
    intro i h child hc
    rw [Array.getElem_modify] at hc
    have hi : i < trie.nodes.size := by simpa using h
    have old := trie.descends i hi child
    split at hc <;> simpa using old hc

@[simp] theorem size_empty : (empty : Trie γ ε).size = 1 := rfl

@[simp] theorem size_insertChild (trie : Trie γ ε) (parent : NodeId) (argument : Argument)
    (id : NodeId) (fits : id.index = trie.size) :
    (trie.insertChild parent argument id fits).size = trie.size + 1 := by
  simp [insertChild, size]

@[simp] theorem size_setTerminal (trie : Trie γ ε) (id : NodeId) (terminal : Terminal γ ε) :
    (trie.setTerminal id terminal).size = trie.size := by
  simp [setTerminal, size]

end Trie

end Dispatch
