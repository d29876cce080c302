import Dispatch.Proofs.Trie.Numbering

/-!
# The frame of a trie

The frame of a trie is all of it but what its terminals are: the arguments and the children of its nodes,
and at which of them a terminal stands. Paths are followed in the frame alone. Tries of the same frame
keep the same frame when both are changed at the same place, whatever the terminals are that are put
there.

## Main definitions

* `Node.frame` — a node without what its terminal is
* `Trie.SameFrame` — two tries differ at most in what their terminals are

## Main results

* `Trie.SameFrame.insertChild`, `Trie.SameFrame.setTerminal` — both changes keep the frames the same
* `Trie.SameFrame.setTerminal_self` — the replacement of a terminal does not show in the frame
* `Trie.SameFrame.eq_of_terminal?_eq`, `Trie.SameFrame.eq_of_terminalAt?_eq` — a frame and its terminals
  are the whole trie
-/

set_option autoImplicit false

namespace Dispatch

variable {γ ε : Type}

/-- The argument and the children of a node, and whether it has a terminal. -/
def Node.frame (node : Node γ ε) : Option Argument × List NodeId × Bool :=
  (node.argument, node.children, node.terminal.isSome)

namespace Trie

variable {trie other : Trie γ ε} {parent id id' i : NodeId} {argument : Argument}
  {terminal : Terminal γ ε}

/-- Two tries differ at most in what their terminals are. -/
structure SameFrame (trie other : Trie γ ε) : Prop where
  size_eq : trie.size = other.size
  frame_eq : ∀ id, (trie.node? id).map Node.frame = (other.node? id).map Node.frame

namespace SameFrame

theorem refl (trie : Trie γ ε) : trie.SameFrame trie := ⟨rfl, fun _ => rfl⟩

theorem symm (same : trie.SameFrame other) : other.SameFrame trie :=
  ⟨same.size_eq.symm, fun id => (same.frame_eq id).symm⟩

theorem trans {third : Trie γ ε} (same : trie.SameFrame other) (same' : other.SameFrame third) :
    trie.SameFrame third :=
  ⟨same.size_eq.trans same'.size_eq, fun id => (same.frame_eq id).trans (same'.frame_eq id)⟩

/-! ### What tries of the same frame share -/

theorem argument?_eq (same : trie.SameFrame other) (id : NodeId) :
    trie.argument? id = other.argument? id := by
  have frames := congrArg (Option.bind · Prod.fst) (same.frame_eq id)
  simp only [Option.bind_map] at frames
  exact frames

theorem children_eq (same : trie.SameFrame other) (id : NodeId) :
    trie.children id = other.children id := by
  have frames := congrArg (fun frame => (frame.map fun parts => parts.2.1).getD []) (same.frame_eq id)
  simp only [Option.map_map] at frames
  rw [Trie.children_eq, Trie.children_eq]
  exact frames

theorem isSome_terminal?_eq (same : trie.SameFrame other) (id : NodeId) :
    (trie.terminal? id).isSome = (other.terminal? id).isSome := by
  have frames := congrArg (fun frame => frame.any fun parts => parts.2.2) (same.frame_eq id)
  have held (trie : Trie γ ε) : (trie.terminal? id).isSome =
      ((trie.node? id).map Node.frame).any fun parts => parts.2.2 := by
    rw [terminal?]
    cases trie.node? id <;> rfl
  rw [held, held]
  exact frames

theorem findChild?_eq (same : trie.SameFrame other) (id : NodeId) (argument : Argument) :
    trie.findChild? id argument = other.findChild? id argument := by
  simp only [findChild?, same.children_eq, same.argument?_eq]

theorem lookup?_eq (same : trie.SameFrame other) (path : List Argument) :
    trie.lookup? path = other.lookup? path := by
  unfold lookup?
  congr 1
  funext id argument
  exact same.findChild?_eq id argument

/-- Tries of the same frame and the same terminals are the same. -/
theorem eq_of_terminal?_eq (same : trie.SameFrame other) (fits : trie.size ≤ NodeId.capacity)
    (terminals : ∀ id, trie.terminal? id = other.terminal? id) : trie = other := by
  have nodes (id : NodeId) : trie.node? id = other.node? id := by
    have frames := same.frame_eq id
    have terminal := terminals id
    rw [terminal?, terminal?] at terminal
    cases here : trie.node? id <;> cases there : other.node? id <;>
      simp only [here, there, Option.map_some, Option.map_none, Option.some_inj, Option.bind_some,
        reduceCtorEq] at frames terminal ⊢
    -- A node is its frame and its terminal.
    simp only [Node.frame, Prod.mk.injEq] at frames
    exact (Node.mk.injEq ..).mpr ⟨frames.1, frames.2.1, terminal⟩
  have arenas : trie.nodes = other.nodes := by
    apply Array.ext_getElem?
    intro slot
    by_cases inside : slot < trie.size
    · exact nodes ⟨slot, inside.trans_le fits⟩
    · -- Behind the last slot there is nothing in either of the two.
      have outside : trie.size ≤ slot := not_lt.mp inside
      have outside' : other.size ≤ slot := same.size_eq ▸ outside
      rw [Array.getElem?_eq_none outside, Array.getElem?_eq_none outside']
  cases trie
  cases other
  cases arenas
  rfl

/-- Nodes are the ends of paths, so tries of the same frame are the same if the same terminals stand at the
ends of all paths. -/
theorem eq_of_terminalAt?_eq {paths : List (List Argument)} (same : trie.SameFrame other)
    (numbered : trie.Numbering paths)
    (terminals : ∀ path, trie.terminalAt? path = other.terminalAt? path) : trie = other := by
  refine same.eq_of_terminal?_eq numbered.fits fun id => ?_
  by_cases inside : id.index < trie.size
  · obtain ⟨path, found⟩ := numbered.exists_lookup? inside
    have here := terminals path
    rw [terminalAt?, terminalAt?, ← same.lookup?_eq, found] at here
    exact here
  · have outside : trie.size ≤ id.index := not_lt.mp inside
    rw [terminal?_eq_none outside, terminal?_eq_none (same.size_eq ▸ outside)]

/-! ### Changes -/

theorem insertChild (same : trie.SameFrame other) (free : id.index = trie.size)
    (free' : id.index = other.size) :
    (trie.insertChild parent argument id free).SameFrame
      (other.insertChild parent argument id free') where
  size_eq := by rw [size_insertChild, size_insertChild, same.size_eq]
  frame_eq i := by
    have grown (trie : Trie γ ε) : ((trie.node? i).map (Node.addChild id)).map Node.frame =
        ((trie.node? i).map Node.frame).map fun (argument, children, held) =>
          (argument, children ++ [id], held) := by
      rw [Option.map_map, Option.map_map]
      rfl
    rw [node?_insertChild, node?_insertChild]
    split
    · rfl
    · split
      · rw [grown, grown, same.frame_eq]
      · exact same.frame_eq i

private theorem frame_setTerminal (trie : Trie γ ε) (id : NodeId) (terminal : Terminal γ ε)
    (i : NodeId) : ((trie.setTerminal id terminal).node? i).map Node.frame =
      if i = id then ((trie.node? i).map Node.frame).map fun (argument, children, _) =>
        (argument, children, true)
      else (trie.node? i).map Node.frame := by
  rw [node?_setTerminal]
  split
  · rw [Option.map_map, Option.map_map]
    rfl
  · rfl

/-- Whatever terminals are put at a node, they are put into the same place of the frame. -/
theorem setTerminal (same : trie.SameFrame other) (id : NodeId) (terminal terminal' : Terminal γ ε) :
    (trie.setTerminal id terminal).SameFrame (other.setTerminal id terminal') where
  size_eq := by rw [size_setTerminal, size_setTerminal, same.size_eq]
  frame_eq i := by rw [frame_setTerminal, frame_setTerminal, same.frame_eq]

/-- Where a terminal stands, another one in its stead does not show in the frame. -/
theorem setTerminal_self (held : (trie.terminal? id).isSome) (terminal : Terminal γ ε) :
    (trie.setTerminal id terminal).SameFrame trie where
  size_eq := size_setTerminal trie id terminal
  frame_eq i := by
    rw [frame_setTerminal]
    split
    · rename_i here
      rw [here]
      rw [terminal?] at held
      cases found : trie.node? id with
      | none => rfl
      | some node =>
        rw [found, Option.bind_some] at held
        simp [Node.frame, held]
    · rfl

end SameFrame

end Trie

end Dispatch
