import Dispatch.Proofs.Trie.Walk

/-!
# Layouts as observations along paths

Two well-formed tries have the same layout if and only if they cannot be told apart by following paths and
looking at the nodes to which these lead: at the parts of their terminals and at the arguments of their
children. Neither the slots nor the descriptions of nodes can be seen in this way.

## Main definitions

* `Trie.LooksAlike` — two nodes show the same parts of a terminal and the same positions below them

## Main results

* `Layout.same_ofNode_iff` — nodes of the same layout, by their parts
* `Trie.lookup?_rel_of_sameLayout` — in tries of the same layout, a path leads to nodes of the same layout
* `Trie.WellFormed.same_ofNode_of_looksAlike` — nodes that look alike along all paths have the same layout
-/

set_option autoImplicit false

namespace Dispatch

open Argument

variable {γ ε γ' ε' : Type} {trie : Trie γ ε} {other : Trie γ' ε'} {i j : NodeId}
  {path : List Argument} {a : Argument}

theorem find?_rel {α β : Type} {R : α → β → Prop} {p : α → Bool} {q : β → Bool} {items : List α}
    {others : List β} (related : List.Forall₂ R items others)
    (agree : ∀ item other, R item other → p item = q other) :
    Option.Rel R (items.find? p) (others.find? q) := by
  induction related with
  | nil => exact .none
  | @cons item other items others first _ ih =>
    cases chosen : p item with
    | false =>
      rw [List.find?_cons_of_neg (by simp [chosen]),
        List.find?_cons_of_neg (by simp [← agree item other first, chosen])]
      exact ih
    | true =>
      rw [List.find?_cons_of_pos chosen,
        List.find?_cons_of_pos (by rw [← agree item other first, chosen])]
      exact .some first

theorem rel_samePosition_iff {first second : Option Argument} :
    Option.Rel SamePosition first second ↔ first.map position = second.map position := by
  constructor
  · rintro (same | _)
    · exact congrArg some same
    · rfl
  · intro same
    cases first <;> cases second <;> simp only [Option.map_some, Option.map_none, reduceCtorEq] at same
    · exact .none
    · exact .some (Option.some_inj.mp same)

/-- Nodes have the same layout if they show the same and so do their children, one by one. -/
theorem Layout.same_ofNode_iff :
    (ofNode trie i).same (ofNode other j) ↔
      Option.Rel SamePosition (trie.argument? i) (other.argument? j) ∧
        (trie.terminal? i).any (·.guard.isSome) = (other.terminal? j).any (·.guard.isSome) ∧
        (trie.terminal? i).any (·.executor.isSome) = (other.terminal? j).any (·.executor.isSome) ∧
        List.Forall₂ (fun child child' => (ofNode trie child).same (ofNode other child'))
          (trie.children i) (other.children j) := by
  rw [ofNode_eq trie i, ofNode_eq other j, same_node_iff, rel_samePosition_iff,
    List.forall₂_map_left_iff, List.forall₂_map_right_iff]

namespace Trie

/-- Nodes of two tries show the same parts of a terminal, and the arguments of their children denote the
same positions, one by one. -/
structure LooksAlike (trie : Trie γ ε) (other : Trie γ' ε') (i j : NodeId) : Prop where
  guard_eq : (trie.terminal? i).any (·.guard.isSome) = (other.terminal? j).any (·.guard.isSome)
  executor_eq : (trie.terminal? i).any (·.executor.isSome) = (other.terminal? j).any (·.executor.isSome)
  children_same : List.Forall₂
    (fun child child' => Option.Rel SamePosition (trie.argument? child) (other.argument? child'))
    (trie.children i) (other.children j)

/-! ### From layouts to observations -/

theorem looksAlike_of_same (same : (Layout.ofNode trie i).same (Layout.ofNode other j)) :
    trie.LooksAlike other i j := by
  obtain ⟨-, guards, executors, children⟩ := Layout.same_ofNode_iff.mp same
  refine ⟨guards, executors, children.imp fun child child' same => ?_⟩
  exact (Layout.same_ofNode_iff.mp same).1

/-- Nodes of the same layout have children of the same layout under each argument, or none. -/
theorem findChild?_rel (same : (Layout.ofNode trie i).same (Layout.ofNode other j)) (a : Argument) :
    Option.Rel (fun child child' => (Layout.ofNode trie child).same (Layout.ofNode other child'))
      (trie.findChild? i a) (other.findChild? j a) := by
  obtain ⟨-, -, -, children⟩ := Layout.same_ofNode_iff.mp same
  refine find?_rel children fun child child' same => ?_
  -- Whether a child is the one that is searched depends on the position of its argument only.
  obtain ⟨arguments, -⟩ := Layout.same_ofNode_iff.mp same
  generalize trie.argument? child = first at arguments ⊢
  generalize other.argument? child' = second at arguments ⊢
  cases arguments with
  | some same =>
    exact decide_eq_decide.mpr ⟨same.symm.trans, same.trans⟩
  | none => rfl

theorem lookup?_rel_of_sameLayout (same : trie.sameLayout other) (path : List Argument) :
    Option.Rel (fun i j => (Layout.ofNode trie i).same (Layout.ofNode other j))
      (trie.lookup? path) (other.lookup? path) := by
  induction path using List.reverseRecOn with
  | nil => exact .some same
  | append_singleton path a ih =>
    rw [lookup?_concat, lookup?_concat]
    generalize trie.lookup? path = first at ih ⊢
    generalize other.lookup? path = second at ih ⊢
    cases ih with
    | some same => exact findChild?_rel same a
    | none => exact .none

/-! ### From observations to layouts -/

/-- If nodes at the end of the same path always look alike, they have the same layout. -/
theorem WellFormed.same_ofNode_of_looksAlike (formed : trie.WellFormed) (otherFormed : other.WellFormed)
    (alike : ∀ path i j, trie.lookup? path = some i → other.lookup? path = some j →
      trie.LooksAlike other i j)
    (leads : trie.lookup? path = some i) (leads' : other.lookup? path = some j)
    (arguments : Option.Rel SamePosition (trie.argument? i) (other.argument? j)) :
    (Layout.ofNode trie i).same (Layout.ofNode other j) := by
  induction i using trie.descent_induct generalizing path j with
  | node i ih =>
    obtain ⟨guards, executors, children⟩ := alike path i j leads leads'
    refine Layout.same_ofNode_iff.mpr ⟨arguments, guards, executors, ?_⟩
    rw [List.forall₂_iff_get] at children ⊢
    refine ⟨children.1, fun k inside inside' => ?_⟩
    have arguments' := children.2 k inside inside'
    have edge := List.get_mem (trie.children i) ⟨k, inside⟩
    have edge' := List.get_mem (other.children j) ⟨k, inside'⟩
    -- Both children stand at the end of the path that goes on with the argument of the first one.
    obtain ⟨a, labelled⟩ := formed.exists_argument?_of_mem edge
    obtain ⟨b, labelled'⟩ := otherFormed.exists_argument?_of_mem edge'
    have same : a.SamePosition b := by
      rw [labelled, labelled'] at arguments'
      cases arguments' with
      | some same => exact same
    have further : trie.lookup? (path ++ [a]) = some ((trie.children i).get ⟨k, inside⟩) := by
      rw [lookup?_concat, leads]
      exact formed.findChild?_eq_some edge labelled
    have further' : other.lookup? (path ++ [a]) = some ((other.children j).get ⟨k, inside'⟩) := by
      rw [lookup?_concat, leads', Option.bind_some, findChild?_congr same]
      exact otherFormed.findChild?_eq_some edge' labelled'
    exact ih _ edge further further' arguments'

end Trie

end Dispatch
