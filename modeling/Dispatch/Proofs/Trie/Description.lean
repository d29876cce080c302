import Dispatch.Proofs.Trie.Observation

/-!
# Tries that differ in descriptions

Descriptions are kept in the arguments of nodes and play no part in anything else. Tries that differ in
nothing but descriptions are followed along the same paths, stay alike when the same place of both is
changed, and have the same layout and the same outline.

## Main definitions

* `Node.outward` — a node without the description of its argument
* `Trie.EqButDescriptions` — two tries differ at most in descriptions

## Main results

* `Trie.EqButDescriptions.lookup?_eq` — paths of the same positions lead to the same node
* `Trie.EqButDescriptions.insertChild`, `Trie.EqButDescriptions.setTerminal` — what both changes keep
* `Trie.EqButDescriptions.sameLayout`, `Trie.EqButDescriptions.text_eq` — descriptions show neither in
  layouts nor in outlines
-/

set_option autoImplicit false

namespace Dispatch

open Argument

variable {γ ε : Type}

/-- What a node is but for the description of its argument. -/
def Node.outward (node : Node γ ε) : Option Position × List NodeId × Option (Terminal γ ε) :=
  (node.argument.map position, node.children, node.terminal)

namespace Trie

variable {trie other : Trie γ ε} {parent id : NodeId} {a b : Argument}
  {path otherPath : List Argument}

/-- Two tries differ at most in the descriptions of arguments. -/
structure EqButDescriptions (trie other : Trie γ ε) : Prop where
  size_eq : trie.size = other.size
  outward_eq : ∀ id, (trie.node? id).map Node.outward = (other.node? id).map Node.outward

namespace EqButDescriptions

theorem refl (trie : Trie γ ε) : trie.EqButDescriptions trie := ⟨rfl, fun _ => rfl⟩

/-! ### What tries share that differ in descriptions -/

theorem argument_rel (alike : trie.EqButDescriptions other) (id : NodeId) :
    Option.Rel SamePosition (trie.argument? id) (other.argument? id) := by
  have outward := congrArg (Option.bind · Prod.fst) (alike.outward_eq id)
  have denoted (trie : Trie γ ε) : (trie.argument? id).map position =
      ((trie.node? id).map Node.outward).bind Prod.fst := by
    rw [argument?]
    cases trie.node? id <;> rfl
  rw [rel_samePosition_iff, denoted, denoted]
  exact outward

theorem children_eq (alike : trie.EqButDescriptions other) (id : NodeId) :
    trie.children id = other.children id := by
  have outward := congrArg (fun node => (node.map fun parts => parts.2.1).getD []) (alike.outward_eq id)
  simp only [Option.map_map] at outward
  rw [Trie.children_eq, Trie.children_eq]
  exact outward

theorem terminal?_eq (alike : trie.EqButDescriptions other) (id : NodeId) :
    trie.terminal? id = other.terminal? id := by
  have outward := congrArg (Option.bind · fun parts => parts.2.2) (alike.outward_eq id)
  simp only [Option.bind_map] at outward
  exact outward

/-! ### Following paths -/

theorem findChild?_eq (alike : trie.EqButDescriptions other) (id : NodeId) (same : a.SamePosition b) :
    trie.findChild? id a = other.findChild? id b := by
  rw [findChild?_congr same, findChild?, findChild?, alike.children_eq]
  congr 1
  funext child
  -- Whether a child is the one that is searched depends on the position of its argument only.
  have arguments := alike.argument_rel child
  generalize trie.argument? child = first at arguments ⊢
  generalize other.argument? child = second at arguments ⊢
  cases arguments with
  | some same =>
    exact decide_eq_decide.mpr ⟨same.symm.trans, same.trans⟩
  | none => rfl

/-- Paths that differ in descriptions lead to the same node of both. -/
theorem lookup?_eq (alike : trie.EqButDescriptions other) (same : SamePath path otherPath) :
    trie.lookup? path = other.lookup? otherPath := by
  rw [lookup?_congr same, lookup?, lookup?]
  congr 1
  funext id argument
  exact alike.findChild?_eq id (SamePosition.refl argument)

/-! ### Changes -/

theorem insertChild (alike : trie.EqButDescriptions other) (same : a.SamePosition b)
    (free : id.index = trie.size) (free' : id.index = other.size) :
    (trie.insertChild parent a id free).EqButDescriptions (other.insertChild parent b id free') where
  size_eq := by rw [size_insertChild, size_insertChild, alike.size_eq]
  outward_eq i := by
    have grown (trie : Trie γ ε) : ((trie.node? i).map (Node.addChild id)).map Node.outward =
        ((trie.node? i).map Node.outward).map fun (denoted, children, terminal) =>
          (denoted, children ++ [id], terminal) := by
      rw [Option.map_map, Option.map_map]
      rfl
    have fresh : (Node.fresh (some a) : Node γ ε).outward = (Node.fresh (some b)).outward :=
      congrArg (fun denoted => (some denoted, [], none)) same
    rw [node?_insertChild, node?_insertChild]
    split
    · exact congrArg some fresh
    · split
      · rw [grown, grown, alike.outward_eq]
      · exact alike.outward_eq i

theorem setTerminal (alike : trie.EqButDescriptions other) (id : NodeId) (terminal : Terminal γ ε) :
    (trie.setTerminal id terminal).EqButDescriptions (other.setTerminal id terminal) where
  size_eq := by rw [size_setTerminal, size_setTerminal, alike.size_eq]
  outward_eq i := by
    have filled (trie : Trie γ ε) :
        ((trie.node? i).map fun node => { node with terminal := some terminal }).map Node.outward =
          ((trie.node? i).map Node.outward).map fun (denoted, children, _) =>
            (denoted, children, some terminal) := by
      rw [Option.map_map, Option.map_map]
      rfl
    rw [node?_setTerminal, node?_setTerminal]
    split
    · rw [filled, filled, alike.outward_eq]
    · exact alike.outward_eq i

/-! ### Layouts and outlines -/

theorem same_ofNode (alike : trie.EqButDescriptions other) (id : NodeId) :
    (Layout.ofNode trie id).same (Layout.ofNode other id) := by
  induction id using trie.descent_induct with
  | node id ih =>
    refine Layout.same_ofNode_iff.mpr ⟨alike.argument_rel id, ?_, ?_, ?_⟩
    · rw [alike.terminal?_eq]
    · rw [alike.terminal?_eq]
    · rw [← alike.children_eq]
      exact List.forall₂_same.mpr ih

theorem sameLayout (alike : trie.EqButDescriptions other) : trie.sameLayout other = true :=
  alike.same_ofNode .root

/-- An argument is written without its description. -/
theorem label_eq (alike : trie.EqButDescriptions other) (id : NodeId) :
    trie.label id = other.label id := by
  have written : (trie.argument? id).map display = (other.argument? id).map display := by
    have arguments := alike.argument_rel id
    generalize trie.argument? id = first at arguments ⊢
    generalize other.argument? id = second at arguments ⊢
    cases arguments with
    | some same => exact congrArg some same.display_eq
    | none => rfl
  rw [label, label, written, alike.terminal?_eq]

theorem linesFrom_congr (alike : trie.EqButDescriptions other) (id : NodeId) (depth : Nat) :
    trie.linesFrom id depth = other.linesFrom id depth := by
  induction id using trie.descent_induct generalizing depth with
  | node id ih =>
    have below : (trie.children id).flatMap (fun child => trie.linesFrom child (depth + 1)) =
        (other.children id).flatMap fun child => other.linesFrom child (depth + 1) := by
      rw [← alike.children_eq]
      exact List.flatMap_congr fun child mem => ih child mem (depth + 1)
    rw [linesFrom_eq, linesFrom_eq, line, line, alike.label_eq, below]

theorem text_eq (alike : trie.EqButDescriptions other) : trie.text = other.text := by
  rw [text, text, alike.linesFrom_congr]

end EqButDescriptions

end Trie

end Dispatch
