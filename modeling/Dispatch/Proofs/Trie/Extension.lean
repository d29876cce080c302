import Dispatch.Proofs.Trie.Change

/-!
# Tries that grow

A trie extends another one if every node of the other is a node of it in the same slot, with the same
argument, the same parent and the same children in front, and with a terminal if it had one. Both changes
of a trie extend it, so what was placed once is not moved, renamed or emptied.

## Main definitions

* `Trie.Extends` — all nodes of a trie are nodes of another one

## Main results

* `Trie.Extends.insertChild`, `Trie.Extends.setTerminal` — both changes extend a trie
* `Trie.Extends.lookup?_eq` — every path leads where it led
-/

set_option autoImplicit false

namespace Dispatch.Trie

variable {γ ε : Type} {trie bigger : Trie γ ε} {parent id : NodeId} {argument : Argument}
  {path : List Argument}

/-- All nodes of a trie are nodes of a bigger one. -/
structure Extends (bigger trie : Trie γ ε) : Prop where
  size_le : trie.size ≤ bigger.size
  /-- nodes keep their arguments, descriptions included -/
  argument?_eq : ∀ id, id.index < trie.size → bigger.argument? id = trie.argument? id
  /-- further children come behind the others -/
  children_prefix : ∀ id, trie.children id <+: bigger.children id
  /-- nodes keep their parents -/
  mem_children_iff : ∀ id, id.index < trie.size →
    ∀ parent, id ∈ bigger.children parent ↔ id ∈ trie.children parent
  /-- a node that has a terminal has one still -/
  isSome_terminal? : ∀ id, (trie.terminal? id).isSome → (bigger.terminal? id).isSome

namespace Extends

theorem refl (trie : Trie γ ε) : trie.Extends trie :=
  ⟨le_rfl, fun _ _ => rfl, fun _ => List.prefix_rfl, fun _ _ _ => Iff.rfl, fun _ held => held⟩

theorem trans {biggest : Trie γ ε} (outer : biggest.Extends bigger) (inner : bigger.Extends trie) :
    biggest.Extends trie where
  size_le := inner.size_le.trans outer.size_le
  argument?_eq id inside :=
    (outer.argument?_eq id (inside.trans_le inner.size_le)).trans (inner.argument?_eq id inside)
  children_prefix id := (inner.children_prefix id).trans (outer.children_prefix id)
  mem_children_iff id inside parent :=
    (outer.mem_children_iff id (inside.trans_le inner.size_le) parent).trans
      (inner.mem_children_iff id inside parent)
  isSome_terminal? id held := outer.isSome_terminal? id (inner.isSome_terminal? id held)

theorem insertChild (valid : parent.index < trie.size) (free : id.index = trie.size) :
    (trie.insertChild parent argument id free).Extends trie where
  size_le := by
    rw [size_insertChild]
    exact Nat.le_succ _
  argument?_eq i inside := by
    rw [argument?_insertChild, if_neg]
    rintro rfl
    omega
  children_prefix i := by
    rw [children_insertChild free valid]
    split
    · exact List.prefix_append _ _
    · exact List.prefix_rfl
  mem_children_iff i inside p := by
    -- Only the new node is added to a list of children, and it had no slot before.
    have old : i ≠ id := by
      rintro rfl
      omega
    rw [children_insertChild free valid]
    split
    · simp [old]
    · exact Iff.rfl
  isSome_terminal? i held := by
    rw [terminal?_insertChild]
    exact held

theorem setTerminal (valid : id.index < trie.size) (terminal : Terminal γ ε) :
    (trie.setTerminal id terminal).Extends trie where
  size_le := (size_setTerminal trie id terminal).ge
  argument?_eq _ _ := argument?_setTerminal
  children_prefix _ := children_setTerminal ▸ List.prefix_rfl
  mem_children_iff _ _ _ := by rw [children_setTerminal]
  isSome_terminal? i held := by
    rw [terminal?_setTerminal valid]
    split
    · rfl
    · exact held

/-! ### Paths -/

/-- A child that was found is found still, as it comes before all further ones. -/
theorem findChild?_eq {child : NodeId} (larger : bigger.Extends trie)
    (found : trie.findChild? id argument = some child) : bigger.findChild? id argument = some child := by
  obtain ⟨further, children⟩ := larger.children_prefix id
  have old : (trie.children id).find? (fun child => (bigger.argument? child).any fun other =>
      decide (other.SamePosition argument)) = trie.findChild? id argument :=
    List.find?_congr fun child mem => by
      rw [larger.argument?_eq child (trie.children_descend mem).2]
  rw [findChild?, ← children, List.find?_append, old, found, Option.some_or]

/-- Every path leads where it led. -/
theorem lookup?_eq (larger : bigger.Extends trie) (found : trie.lookup? path = some id) :
    bigger.lookup? path = some id := by
  induction path using List.reverseRecOn generalizing id with
  | nil => exact found
  | append_singleton path argument ih =>
    rw [lookup?_concat] at found ⊢
    obtain ⟨parent, led, last⟩ := Option.bind_eq_some_iff.mp found
    rw [ih led, Option.bind_some]
    exact larger.findChild?_eq last

end Extends

end Dispatch.Trie
