import Dispatch.Trie.Traversal

/-!
# Layouts

The layout of a trie is the tree of its arguments, with a note at every node which parts of a
terminal are present. Guards and executors themselves are opaque, so tries are compared by layout.

## Main definitions

* `Layout` — a tree of arguments and notes
* `Layout.ofNode`, `Trie.layout` — the layout below a node, of a whole trie
* `Layout.same` — equal layouts, descriptions aside
* `Layout.size`, `Layout.terminalCount` — the number of nodes, of nodes with a terminal
* `Trie.text` — the trie as an indented outline
-/

set_option autoImplicit false

namespace Dispatch

/-- A tree of arguments that tells which parts of a terminal are present. -/
inductive Layout where
  | node (argument : Option Argument) (hasGuard hasExecutor : Bool) (children : List Layout)

namespace Layout

/-- The argument of the topmost node. -/
def argument : Layout → Option Argument
  | node argument _ _ _ => argument

/-- Whether the topmost node has a guard. -/
def hasGuard : Layout → Bool
  | node _ hasGuard _ _ => hasGuard

/-- Whether the topmost node has an executor. -/
def hasExecutor : Layout → Bool
  | node _ _ hasExecutor _ => hasExecutor

/-- The layouts below the topmost node. -/
def children : Layout → List Layout
  | node _ _ _ children => children

/-- Whether the topmost node has a terminal. -/
def hasTerminal (layout : Layout) : Bool := layout.hasGuard || layout.hasExecutor

/-- The layout below a node of a trie. -/
def ofNode {γ ε : Type} (trie : Trie γ ε) (id : NodeId) : Layout :=
  trie.foldFrom
    (fun id children =>
      node (trie.argument? id) ((trie.node? id).any Node.hasGuard)
        ((trie.node? id).any Node.hasExecutor) children)
    id

mutual

/-- Whether two layouts are equal, descriptions aside. -/
def same : Layout → Layout → Bool
  | node argument hasGuard hasExecutor children, node argument' hasGuard' hasExecutor' children' =>
    decide (argument.map Argument.position = argument'.map Argument.position) &&
      hasGuard == hasGuard' && hasExecutor == hasExecutor' && allSame children children'

/-- Whether two lists of layouts are equal, descriptions aside. -/
def allSame : List Layout → List Layout → Bool
  | [], [] => true
  | layout :: rest, layout' :: rest' => layout.same layout' && allSame rest rest'
  | _, _ => false

end

mutual

/-- The nodes in order, each one before its children. -/
def nodes : Layout → List Layout
  | node argument hasGuard hasExecutor children =>
    node argument hasGuard hasExecutor children :: nodesOf children

/-- The nodes of several layouts in order. -/
def nodesOf : List Layout → List Layout
  | [] => []
  | layout :: rest => layout.nodes ++ nodesOf rest

end

mutual

/-- The number of nodes. -/
def size : Layout → Nat
  | node _ _ _ children => 1 + sizes children

/-- The number of nodes of several layouts. -/
def sizes : List Layout → Nat
  | [] => 0
  | layout :: rest => layout.size + sizes rest

end

/-- The number of nodes that have a terminal. -/
def terminalCount (layout : Layout) : Nat := layout.nodes.countP hasTerminal

end Layout

namespace Trie

variable {γ ε : Type}

/-- The layout of the whole trie. -/
def layout (trie : Trie γ ε) : Layout := Layout.ofNode trie NodeId.root

/-- Whether two tries have the same layout, descriptions aside. -/
def sameLayout {γ' ε' : Type} (trie : Trie γ ε) (other : Trie γ' ε') : Bool :=
  trie.layout.same other.layout

/-- What is noted behind the argument of a node with a terminal. -/
def marks (terminal : Terminal γ ε) : String :=
  let parts :=
    (if terminal.guard.isSome then ["guard"] else []) ++
      (if terminal.executor.isSome then ["exec"] else [])
  " [" ++ String.intercalate ", " parts ++ "]"

/-- What stands for a node in the outline: its argument, and which parts of a terminal it has. -/
def label (trie : Trie γ ε) (id : NodeId) : String :=
  ((trie.argument? id).map Argument.display).getD "(root)" ++
    ((trie.terminal? id).map marks).getD ""

/-- The lines of the outline below a node at a given depth. Each level is indented by two more
blanks. -/
def linesFrom (trie : Trie γ ε) (id : NodeId) (depth : Nat) : List String :=
  trie.foldFrom
    (fun id (children : List (Nat → List String)) depth =>
      (String.ofList (List.replicate (2 * depth) ' ') ++ trie.label id) ::
        children.flatMap fun lines => lines (depth + 1))
    id depth

/-- The trie as an indented outline, one node to a line. -/
def text (trie : Trie γ ε) : String :=
  String.join ((trie.linesFrom NodeId.root 0).map (· ++ "\n"))

end Trie

end Dispatch
