import Dispatch.Proofs.Trie.Spelling

/-!
# Routes

The route of a node is the list of arguments that are read along the edges on the way from the root to
the node. In a well-formed trie every node has exactly one route, and following a path undoes the
reading: a path leads to a node if and only if it denotes the positions of the route of the node.

## Main definitions

* `Trie.Route` — the arguments on the way from the root to a node
* `Trie.Passable` — a path that denotes the positions of some route
* `Trie.passableClasses` — passable paths, descriptions aside

## Main results

* `Trie.WellFormed.existsUnique_route` — every node has exactly one route
* `Trie.WellFormed.lookup?_eq_some_iff` — which paths lead to a node
* `Trie.WellFormed.exists_bijective_node` — nodes correspond to the classes of passable paths
-/

set_option autoImplicit false

namespace Dispatch.Trie

open Argument

variable {γ ε : Type} {trie : Trie γ ε} {parent id i j child : NodeId} {argument a : Argument}
  {path other q : List Argument}

/-- The arguments that are read along the edges on the way from the root to a node. -/
inductive Route (trie : Trie γ ε) : NodeId → List Argument → Prop
  | root : Route trie .root []
  | step {parent child : NodeId} {path : List Argument} {argument : Argument}
      (route : Route trie parent path) (edge : child ∈ trie.children parent)
      (labelled : trie.argument? child = some argument) : Route trie child (path ++ [argument])

namespace Route

theorem lt_size (route : trie.Route id path) : id.index < trie.size := by
  cases route with
  | root => exact trie.nonempty
  | step _ edge _ => exact (trie.children_descend edge).2

/-- Of a route that is not empty, the last argument is that of the node and the rest is the route of
its parent. -/
theorem exists_parent (route : trie.Route id (path ++ [a])) :
    ∃ parent, trie.Route parent path ∧ id ∈ trie.children parent ∧ trie.argument? id = some a := by
  generalize whole : path ++ [a] = longer at route
  cases route with
  | root => simp at whole
  | step route edge labelled =>
    obtain ⟨rfl, last⟩ := List.append_inj' whole rfl
    obtain rfl := List.singleton_inj.mp last
    exact ⟨_, route, edge, labelled⟩

/-- The beginnings of a route are the routes of the nodes on the way. -/
theorem exists_of_append (route : trie.Route id (path ++ q)) : ∃ i, trie.Route i path := by
  induction q using List.reverseRecOn generalizing id with
  | nil => exact ⟨id, by simpa using route⟩
  | append_singleton q a ih =>
    rw [← List.append_assoc] at route
    obtain ⟨parent, above, -, -⟩ := route.exists_parent
    exact ih above

end Route

/-- Whatever a path leads to has a route of the same positions. -/
theorem exists_route_of_lookup? (leads : trie.lookup? q = some id) :
    ∃ path, trie.Route id path ∧ SamePath q path := by
  induction q using List.reverseRecOn generalizing id with
  | nil =>
    obtain rfl : NodeId.root = id := Option.some_inj.mp leads
    exact ⟨[], .root, SamePath.refl []⟩
  | append_singleton q a ih =>
    rw [lookup?_concat, Option.bind_eq_some_iff] at leads
    obtain ⟨parent, led, found⟩ := leads
    obtain ⟨path, route, same⟩ := ih led
    -- The child was found by its argument, which is what its route goes on with.
    obtain ⟨b, labelled, last⟩ := exists_argument?_of_findChild? found
    exact ⟨path ++ [b], route.step (findChild?_mem found) labelled,
      samePath_concat_iff.mpr ⟨same, last.symm⟩⟩

namespace WellFormed

/-- No node is a child of two nodes. -/
theorem parent_unique (formed : trie.WellFormed) (mem : child ∈ trie.children i)
    (mem' : child ∈ trie.children j) : i = j := by
  obtain ⟨parent, -, unique⟩ :=
    formed.listed_once child (trie.children_descend mem).2 (ne_root_of_mem_children mem)
  exact (unique i mem).trans (unique j mem').symm

theorem route_unique (formed : trie.WellFormed) (route : trie.Route id path)
    (route' : trie.Route id other) : path = other := by
  induction route generalizing other with
  | root =>
    cases route' with
    | root => rfl
    | step _ edge _ => exact absurd rfl (ne_root_of_mem_children edge)
  | step _ edge labelled ih =>
    cases route' with
    | root => exact absurd rfl (ne_root_of_mem_children edge)
    | step above edge' labelled' =>
      obtain rfl := formed.parent_unique edge edge'
      rw [labelled, Option.some_inj] at labelled'
      rw [ih above, labelled']

/-- Every node has a route, as it has a parent in an earlier slot unless it is the root. -/
theorem exists_route (formed : trie.WellFormed) (inside : id.index < trie.size) :
    ∃ path, trie.Route id path := by
  induction slot : id.index using Nat.strong_induction_on generalizing id with
  | _ _ ih =>
    by_cases top : id = .root
    · exact ⟨[], top ▸ .root⟩
    · obtain ⟨parent, once, -⟩ := formed.listed_once id inside top
      have edge : id ∈ trie.children parent := List.count_pos_iff.mp (by omega)
      have descends := trie.children_descend edge
      obtain ⟨path, route⟩ := ih parent.index (by omega) (descends.1.trans inside) rfl
      obtain ⟨a, labelled⟩ := formed.exists_argument?_of_mem edge
      exact ⟨path ++ [a], route.step edge labelled⟩

theorem existsUnique_route (formed : trie.WellFormed) (inside : id.index < trie.size) :
    ∃! path, trie.Route id path := by
  obtain ⟨path, route⟩ := formed.exists_route inside
  exact ⟨path, route, fun other route' => formed.route_unique route' route⟩

/-- A route leads to its node. -/
theorem lookup?_of_route (formed : trie.WellFormed) (route : trie.Route id path) :
    trie.lookup? path = some id := by
  induction route with
  | root => exact lookup?_nil
  | step _ edge labelled ih =>
    rw [lookup?_concat, ih, Option.bind_some]
    exact formed.findChild?_eq_some edge labelled

theorem node_unique (formed : trie.WellFormed) (route : trie.Route i path)
    (route' : trie.Route j path) : i = j :=
  Option.some_inj.mp ((formed.lookup?_of_route route).symm.trans (formed.lookup?_of_route route'))

/-- A path leads to a node if and only if it denotes the positions of the route of the node. -/
theorem lookup?_eq_some_iff (formed : trie.WellFormed) (route : trie.Route id path) :
    trie.lookup? q = some id ↔ SamePath q path := by
  constructor
  · intro leads
    obtain ⟨other, route', same⟩ := exists_route_of_lookup? leads
    exact formed.route_unique route' route ▸ same
  · intro same
    rw [lookup?_congr same]
    exact formed.lookup?_of_route route

/-- A path leads nowhere if and only if it denotes the positions of no route. -/
theorem lookup?_eq_none_iff (formed : trie.WellFormed) :
    trie.lookup? q = none ↔ ∀ id path, trie.Route id path → ¬ SamePath q path := by
  rw [Option.eq_none_iff_forall_ne_some]
  constructor
  · intro nowhere id path route same
    exact nowhere id ((formed.lookup?_eq_some_iff route).mpr same)
  · intro none id leads
    obtain ⟨path, route, same⟩ := exists_route_of_lookup? leads
    exact none id path route same

end WellFormed

/-! ### Nodes and classes of paths -/

/-- A path that denotes the positions of the route of some node. -/
def Passable (trie : Trie γ ε) (q : List Argument) : Prop :=
  ∃ id path, trie.Route id path ∧ SamePath q path

/-- Passable paths are told apart by their positions, descriptions aside. -/
def passableClasses (trie : Trie γ ε) : Setoid {q // trie.Passable q} where
  r p q := SamePath p.val q.val
  iseqv := ⟨fun p => SamePath.refl p.val, SamePath.symm, SamePath.trans⟩

/-- Following a path is a bijection between the classes of passable paths and the nodes. -/
theorem WellFormed.exists_bijective_node (formed : trie.WellFormed) :
    ∃ node : Quotient trie.passableClasses → {id : NodeId // id.index < trie.size},
      Function.Bijective node ∧ ∀ q, trie.lookup? q.val = some (node (Quotient.mk _ q)).val := by
  -- The node of a passable path depends on the class of the path only.
  have passes : ∀ q : {q // trie.Passable q}, ∃ id : {id : NodeId // id.index < trie.size},
      trie.lookup? q.val = some id.val := by
    rintro ⟨q, id, path, route, same⟩
    exact ⟨⟨id, route.lt_size⟩, (formed.lookup?_eq_some_iff route).mpr same⟩
  choose node leads using passes
  have respects : ∀ p q : {q // trie.Passable q}, SamePath p.val q.val → node p = node q := by
    intro p q same
    apply Subtype.ext
    apply Option.some_inj.mp
    rw [← leads p, ← leads q, lookup?_congr same]
  refine ⟨Quotient.lift node respects, ⟨?_, ?_⟩, leads⟩
  · -- Paths of one node denote the positions of its only route.
    rintro ⟨p⟩ ⟨q⟩ (same : node p = node q)
    apply Quotient.sound
    obtain ⟨path, route, toPath⟩ := exists_route_of_lookup? (leads p)
    have leads' : trie.lookup? q.val = some (node p).val := same ▸ leads q
    exact toPath.trans ((formed.lookup?_eq_some_iff route).mp leads').symm
  · rintro ⟨id, inside⟩
    obtain ⟨path, route⟩ := formed.exists_route inside
    have passable : trie.Passable path := ⟨id, path, route, SamePath.refl path⟩
    refine ⟨Quotient.mk _ ⟨path, passable⟩, Subtype.ext ?_⟩
    have found := formed.lookup?_of_route route
    exact Option.some_inj.mp ((leads ⟨path, passable⟩).symm.trans found)

end Dispatch.Trie
