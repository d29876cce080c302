import Dispatch.Proofs.Path
import Dispatch.Trie.Basic
import Mathlib.Data.List.Find

/-!
# How the two changes show in the parts of a trie

A trie changes by appending a node below another one, or by putting a terminal at a node. For each of
the two, what becomes of the arguments, the children and the terminals, and hence of the paths that
can be followed.

## Main definitions

* `Trie.terminalAt?` — the terminal at the end of a path

## Main results

* `Trie.lookup?_insertChild` — exactly the path of the new node becomes known
* `Trie.terminalAt?_insertChild`, `Trie.terminalAt?_setTerminal` — the terminals at the ends of paths
-/

set_option autoImplicit false

namespace Dispatch.Trie

open Argument

variable {γ ε : Type} {trie : Trie γ ε} {parent id i child : NodeId} {argument a : Argument}
  {path base : List Argument} {terminal : Terminal γ ε}

/-- The terminal at the end of a path. -/
def terminalAt? (trie : Trie γ ε) (path : List Argument) : Option (Terminal γ ε) :=
  (trie.lookup? path).bind trie.terminal?

theorem children_eq (trie : Trie γ ε) (id : NodeId) :
    trie.children id = ((trie.node? id).map (·.children)).getD [] := by
  unfold children
  cases trie.node? id <;> rfl

theorem node?_eq_none (h : trie.size ≤ id.index) : trie.node? id = none :=
  Array.getElem?_eq_none h

theorem isSome_node? (h : id.index < trie.size) : (trie.node? id).isSome := by
  simp [node?, show id.index < trie.nodes.size from h]

theorem children_eq_nil (h : trie.size ≤ id.index) : trie.children id = [] := by
  rw [children_eq, node?_eq_none h]
  rfl

theorem terminal?_eq_none (h : trie.size ≤ id.index) : trie.terminal? id = none := by
  rw [terminal?, node?_eq_none h]
  rfl

theorem lt_size_of_terminal? (h : trie.terminal? id = some terminal) : id.index < trie.size := by
  by_contra outside
  simp [terminal?_eq_none (not_lt.mp outside)] at h

/-! ### The trie that has only a root -/

theorem eq_root_of_lt_empty (inside : id.index < (empty : Trie γ ε).size) : id = .root :=
  NodeId.ext (Nat.lt_one_iff.mp inside)

theorem node?_empty (id : NodeId) :
    (empty : Trie γ ε).node? id = none ∨ (empty : Trie γ ε).node? id = some (.fresh none) := by
  by_cases outside : (empty : Trie γ ε).size ≤ id.index
  · exact Or.inl (node?_eq_none outside)
  · obtain rfl := eq_root_of_lt_empty (not_le.mp outside)
    exact Or.inr rfl

@[simp] theorem argument?_empty (id : NodeId) : (empty : Trie γ ε).argument? id = none := by
  rcases node?_empty id with absent | fresh
  · rw [argument?, absent, Option.bind_none]
  · rw [argument?, fresh]
    rfl

@[simp] theorem children_empty (id : NodeId) : (empty : Trie γ ε).children id = [] := by
  rcases node?_empty id with absent | fresh
  · rw [children_eq, absent]
    rfl
  · rw [children_eq, fresh]
    rfl

@[simp] theorem terminal?_empty (id : NodeId) : (empty : Trie γ ε).terminal? id = none := by
  rcases node?_empty id with absent | fresh
  · rw [terminal?, absent, Option.bind_none]
  · rw [terminal?, fresh]
    rfl

/-! ### Following paths -/

theorem findChild?_mem (h : trie.findChild? id a = some child) : child ∈ trie.children id :=
  List.mem_of_find?_eq_some h

/-- The child that is found for an argument has one of the same position. -/
theorem exists_argument?_of_findChild? (h : trie.findChild? id a = some child) :
    ∃ b, trie.argument? child = some b ∧ b.SamePosition a := by
  simpa [Option.any_eq_true] using List.find?_some h

theorem ne_root_of_mem_children (mem : child ∈ trie.children id) : child ≠ .root := by
  rintro rfl
  exact Nat.not_lt_zero _ (trie.children_descend mem).1

theorem findChild?_congr {b : Argument} (same : a.SamePosition b) :
    trie.findChild? id a = trie.findChild? id b := by
  have agree : ∀ other : Argument, other.SamePosition a ↔ other.SamePosition b := fun other =>
    ⟨fun h => h.trans same, fun h => h.trans same.symm⟩
  simp only [findChild?, agree]

theorem findChild?_eq_none (h : trie.size ≤ id.index) : trie.findChild? id a = none := by
  simp [findChild?, children_eq_nil h]

@[simp] theorem lookup?_nil : trie.lookup? [] = some NodeId.root := rfl

theorem lookup?_append {rest : List Argument} :
    trie.lookup? (path ++ rest) = (trie.lookup? path).bind fun id => rest.foldlM trie.findChild? id := by
  simp [lookup?, Option.bind_eq_bind]

theorem lookup?_concat :
    trie.lookup? (path ++ [a]) = (trie.lookup? path).bind fun id => trie.findChild? id a := by
  simp [lookup?_append]

theorem lookup?_singleton : trie.lookup? [a] = trie.findChild? .root a := by
  rw [← List.nil_append [a], lookup?_concat, lookup?_nil, Option.bind_some]

theorem lookup?_congr {p q : List Argument} (same : SamePath p q) :
    trie.lookup? p = trie.lookup? q := by
  induction p using List.reverseRecOn generalizing q with
  | nil => rw [samePath_nil_left.mp same]
  | append_singleton p a ih =>
    rcases List.eq_nil_or_concat q with rfl | ⟨q, b, rfl⟩
    · simp at same
    · rw [List.concat_eq_append] at same ⊢
      obtain ⟨same, last⟩ := samePath_concat_iff.mp same
      rw [lookup?_concat, lookup?_concat, ih same]
      congr 1
      funext id
      exact findChild?_congr last

theorem lookup?_lt_size (h : trie.lookup? path = some id) : id.index < trie.size := by
  rcases List.eq_nil_or_concat path with rfl | ⟨path, a, rfl⟩
  · obtain rfl : NodeId.root = id := by simpa using h
    exact trie.nonempty
  · rw [List.concat_eq_append, lookup?_concat, Option.bind_eq_some_iff] at h
    obtain ⟨parent, -, found⟩ := h
    exact (trie.children_descend (findChild?_mem found)).2

/-- A child that is missing ends every path through it. -/
theorem lookup?_eq_none_of_absent {other : List Argument} (led : trie.lookup? path = some id)
    (absent : trie.findChild? id a = none) (same : SamePath other (path ++ [a])) :
    trie.lookup? other = none := by
  rw [lookup?_congr same, lookup?_concat, led]
  exact absent

@[simp] theorem terminalAt?_empty : (empty : Trie γ ε).terminalAt? path = none := by
  rw [terminalAt?]
  cases empty.lookup? path with
  | none => rfl
  | some id => exact terminal?_empty id

/-! ### Appending a node -/

section InsertChild

variable (fits : id.index = trie.size)

theorem node?_insertChild :
    (trie.insertChild parent argument id fits).node? i =
      if i = id then some (.fresh (some argument))
      else if i = parent then (trie.node? i).map (Node.addChild id) else trie.node? i := by
  have new : i.index = trie.nodes.size ↔ i = id := by
    rw [NodeId.ext_iff, fits]
    rfl
  have at_parent : parent.index = i.index ↔ i = parent := by rw [NodeId.ext_iff, eq_comm]
  simp only [node?, insertChild, Array.getElem?_push, Array.size_modify, Array.getElem?_modify, new,
    at_parent]

theorem argument?_insertChild :
    (trie.insertChild parent argument id fits).argument? i =
      if i = id then some argument else trie.argument? i := by
  unfold argument?
  rw [node?_insertChild]
  split
  · rfl
  · split
    · cases trie.node? i <;> rfl
    · rfl

theorem terminal?_insertChild :
    (trie.insertChild parent argument id fits).terminal? i = trie.terminal? i := by
  unfold terminal?
  rw [node?_insertChild]
  split
  · rename_i new
    rw [new, node?_eq_none fits.ge]
    rfl
  · split
    · cases trie.node? i <;> rfl
    · rfl

theorem children_insertChild (valid : parent.index < trie.size) :
    (trie.insertChild parent argument id fits).children i =
      if i = parent then trie.children i ++ [id] else trie.children i := by
  rw [children_eq, children_eq, node?_insertChild]
  by_cases new : i = id
  · -- The slot of the new node was free, so it is no parent and had no children before.
    have differ : i ≠ parent := by
      rintro rfl
      rw [new] at valid
      omega
    rw [if_pos new, if_neg differ, new, node?_eq_none fits.ge]
    rfl
  · rw [if_neg new]
    split
    · rename_i same
      obtain ⟨node, found⟩ := Option.isSome_iff_exists.mp (isSome_node? (same ▸ valid))
      rw [found]
      rfl
    · rfl

/-- The children that were there keep their arguments. -/
theorem argument?_insertChild_of_mem (mem : child ∈ trie.children i) :
    (trie.insertChild parent argument id fits).argument? child = trie.argument? child := by
  have old := (trie.children_descend mem).2
  rw [argument?_insertChild, if_neg]
  rintro rfl
  omega

theorem findChild?_insertChild (valid : parent.index < trie.size)
    (absent : trie.findChild? parent argument = none) :
    (trie.insertChild parent argument id fits).findChild? i a =
      if i = parent ∧ argument.SamePosition a then some id else trie.findChild? i a := by
  -- Among the children that were there, the search ends as before.
  have old : (trie.children i).find? (fun child =>
        ((trie.insertChild parent argument id fits).argument? child).any fun other =>
          decide (other.SamePosition a)) = trie.findChild? i a :=
    List.find?_congr fun child mem => by rw [argument?_insertChild_of_mem fits mem]
  rw [findChild?, children_insertChild fits valid]
  by_cases here : i = parent
  · rw [if_pos here, List.find?_append, old]
    subst here
    by_cases same : argument.SamePosition a
    · rw [if_pos ⟨rfl, same⟩, ← findChild?_congr same, absent]
      simp [argument?_insertChild, same]
    · simp [argument?_insertChild, same]
  · rw [if_neg here, old, if_neg fun both => here both.1]

/-- Of all paths only that of the new node leads further than before. -/
theorem lookup?_insertChild (leads : ∀ path, trie.lookup? path = some parent ↔ SamePath path base)
    (absent : trie.findChild? parent argument = none) (path : List Argument) :
    (trie.insertChild parent argument id fits).lookup? path =
      if SamePath path (base ++ [argument]) then some id else trie.lookup? path := by
  have led : trie.lookup? base = some parent := (leads base).mpr (SamePath.refl base)
  have valid : parent.index < trie.size := lookup?_lt_size led
  -- The paths are taken from their ends, as a step is made at the last argument.
  induction path using List.reverseRecOn with
  | nil => simp
  | append_singleton path a ih =>
    rw [lookup?_concat, ih, lookup?_concat]
    by_cases new : SamePath path (base ++ [argument])
    · -- The new node has no children, so nothing follows behind it.
      have longer : ¬ SamePath (path ++ [a]) (base ++ [argument]) := by
        intro same
        have := same.length_eq
        have := new.length_eq
        simp at *
        omega
      have before : trie.lookup? path = none := lookup?_eq_none_of_absent led absent new
      have differ : id ≠ parent := by
        rintro rfl
        omega
      rw [if_pos new, if_neg longer, before]
      simp [findChild?_insertChild fits valid absent, differ, findChild?_eq_none fits.ge]
    · -- A step differs from before only at the parent, to which no other path than `base` leads.
      rw [if_neg new]
      cases found : trie.lookup? path with
      | none =>
        have elsewhere : ¬ SamePath path base := fun same => by
          simp [(leads path).mpr same] at found
        simp [elsewhere]
      | some i =>
        have here : i = parent ↔ SamePath path base := by
          rw [← leads path, found, Option.some_inj]
        rw [Option.bind_some, Option.bind_some, findChild?_insertChild fits valid absent]
        simp only [here, samePath_concat_iff, samePosition_comm]

/-- A new node has no terminal, and the others keep theirs. -/
theorem terminalAt?_insertChild (leads : ∀ path, trie.lookup? path = some parent ↔ SamePath path base)
    (absent : trie.findChild? parent argument = none) (path : List Argument) :
    (trie.insertChild parent argument id fits).terminalAt? path = trie.terminalAt? path := by
  rw [terminalAt?, terminalAt?, lookup?_insertChild fits leads absent]
  split
  · rename_i new
    have led : trie.lookup? base = some parent := (leads base).mpr (SamePath.refl base)
    have before : trie.lookup? path = none := lookup?_eq_none_of_absent led absent new
    rw [before, Option.bind_some, terminal?_insertChild, terminal?_eq_none fits.ge]
    rfl
  · exact congrArg _ (funext fun _ => terminal?_insertChild fits)

end InsertChild

/-! ### Putting a terminal -/

theorem node?_setTerminal :
    (trie.setTerminal id terminal).node? i =
      if i = id then (trie.node? i).map fun node => { node with terminal := some terminal }
      else trie.node? i := by
  have here : id.index = i.index ↔ i = id := by rw [NodeId.ext_iff, eq_comm]
  simp only [node?, setTerminal, Array.getElem?_modify, here]

@[simp] theorem argument?_setTerminal :
    (trie.setTerminal id terminal).argument? i = trie.argument? i := by
  rw [argument?, argument?, node?_setTerminal]
  split
  · cases trie.node? i <;> rfl
  · rfl

@[simp] theorem children_setTerminal :
    (trie.setTerminal id terminal).children i = trie.children i := by
  rw [children_eq, children_eq, node?_setTerminal]
  split
  · cases trie.node? i <;> rfl
  · rfl

theorem terminal?_setTerminal (valid : id.index < trie.size) :
    (trie.setTerminal id terminal).terminal? i =
      if i = id then some terminal else trie.terminal? i := by
  rw [terminal?, terminal?, node?_setTerminal]
  split
  · rename_i here
    obtain ⟨node, found⟩ := Option.isSome_iff_exists.mp (isSome_node? (here ▸ valid))
    rw [found]
    rfl
  · rfl

@[simp] theorem findChild?_setTerminal :
    (trie.setTerminal id terminal).findChild? i a = trie.findChild? i a := by
  simp only [findChild?, children_setTerminal, argument?_setTerminal]

@[simp] theorem lookup?_setTerminal :
    (trie.setTerminal id terminal).lookup? path = trie.lookup? path := by
  simp only [lookup?]
  congr 1
  funext i a
  exact findChild?_setTerminal

/-- A terminal shows at the paths to its node and nowhere else. -/
theorem terminalAt?_setTerminal (leads : ∀ path, trie.lookup? path = some id ↔ SamePath path base)
    (path : List Argument) :
    (trie.setTerminal id terminal).terminalAt? path =
      if SamePath path base then some terminal else trie.terminalAt? path := by
  have valid : id.index < trie.size := lookup?_lt_size ((leads base).mpr (SamePath.refl base))
  rw [terminalAt?, terminalAt?, lookup?_setTerminal]
  by_cases here : SamePath path base
  · rw [if_pos here, (leads path).mpr here, Option.bind_some, terminal?_setTerminal valid,
      if_pos rfl]
  · rw [if_neg here]
    cases found : trie.lookup? path with
    | none => rfl
    | some i =>
      have elsewhere : i ≠ id := by
        rintro rfl
        exact here ((leads path).mp found)
      rw [Option.bind_some, Option.bind_some, terminal?_setTerminal valid, if_neg elsewhere]

end Dispatch.Trie
