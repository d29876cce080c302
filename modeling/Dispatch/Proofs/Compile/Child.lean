import Dispatch.Proofs.Compile.Steps
import Dispatch.Proofs.Trie.Route

/-!
# Finding or appending a child

Nodes come into a trie in one way only: the child of a node for an argument is looked for, and it is appended
where there is none. So a position below a node never has two children. A child that is there is found, whoever
asks for it and whatever happened in between; a child that is appended takes the next slot; and if there is no
slot left, nothing is changed.

## Main definitions

* `Trie.IsChildFor` — a child of a node that stands for the position of an argument
* `Trie.AppendsTo` — a trie is another one with a node appended

## Main results

* `Trie.WellFormed.findChild?_eq_iff` — children that are found are equal only if they are looked for at the same
  node under the same position
* `Progress.ensurePath_of_reachable` — a path that was walked is walked again to the same node, without change
* `Progress.exists_chain` — arenas of every size, up to a full one
* `Progress.ensureChild_finds_or_appends` — what looking for a child does in any well-formed trie
-/

set_option autoImplicit false

namespace Dispatch

open Argument

variable {γ ε : Type}

namespace Trie

variable {trie : Trie γ ε} {parent id i j child : NodeId} {argument a b : Argument}

/-- A node is a child of `parent`, and its argument denotes the same position as the given one. -/
def IsChildFor (trie : Trie γ ε) (parent : NodeId) (argument : Argument) (child : NodeId) : Prop :=
  child ∈ trie.children parent ∧
    ∃ other, trie.argument? child = some other ∧ other.SamePosition argument

/-- A trie is an earlier one with a node for an argument in the next slot, which has neither children nor a
terminal and is the last child of `parent`. -/
structure AppendsTo (after trie : Trie γ ε) (parent : NodeId) (argument : Argument) (id : NodeId) :
    Prop where
  index_eq : id.index = trie.size
  size_eq : after.size = trie.size + 1
  node?_new : after.node? id = some ⟨some argument, [], none⟩
  node?_parent : ∀ node, trie.node? parent = some node →
    after.node? parent = some { node with children := node.children ++ [id] }
  node?_other : ∀ other, other ≠ id → other ≠ parent → after.node? other = trie.node? other

theorem appendsTo_insertChild (valid : parent.index < trie.size) (free : id.index = trie.size) :
    (trie.insertChild parent argument id free).AppendsTo trie parent argument id where
  index_eq := free
  size_eq := size_insertChild ..
  node?_new := by
    rw [node?_insertChild, if_pos rfl]
    rfl
  node?_parent node found := by
    have old : parent ≠ id := by
      rintro rfl
      omega
    rw [node?_insertChild, if_neg old, if_pos rfl, found]
    rfl
  node?_other other new elsewhere := by
    rw [node?_insertChild, if_neg new, if_neg elsewhere]

namespace WellFormed

/-- The search finds the child that stands for the position, whichever description it has. -/
theorem findChild?_eq_some_iff (formed : trie.WellFormed) :
    trie.findChild? parent argument = some child ↔ trie.IsChildFor parent argument child := by
  constructor
  · intro found
    exact ⟨findChild?_mem found, exists_argument?_of_findChild? found⟩
  · rintro ⟨mem, other, labelled, same⟩
    rw [← findChild?_congr same]
    exact formed.findChild?_eq_some mem labelled

/-- Children that are found are equal only if they are looked for at the same node under the same position. -/
theorem findChild?_eq_iff (formed : trie.WellFormed) (found : trie.findChild? i a = some id)
    (found' : trie.findChild? j b = some child) : child = id ↔ j = i ∧ a.SamePosition b := by
  constructor
  · rintro rfl
    obtain ⟨_, labelled, same⟩ := exists_argument?_of_findChild? found
    obtain ⟨_, labelled', same'⟩ := exists_argument?_of_findChild? found'
    obtain rfl := Option.some_inj.mp (labelled.symm.trans labelled')
    exact ⟨formed.parent_unique (findChild?_mem found') (findChild?_mem found), same.symm.trans same'⟩
  · rintro ⟨rfl, same⟩
    rw [← findChild?_congr same, found, Option.some_inj] at found'
    exact found'.symm

end WellFormed

end Trie

namespace Progress

variable {settings : Settings} {progress after later : Progress γ ε} {start parent id : NodeId}
  {argument : Argument} {path other : List Argument}

/-! ### Calls that were made before -/

/-- Whatever calls were made, nodes that were there are there still. -/
theorem extends_of_reachable (reachable : Relation.ReflTransGen (Change settings) progress after) :
    after.trie.Extends progress.trie :=
  kept_of_reachable (P := fun point => point.trie.Extends progress.trie)
    (fun _ _ change grown => change.extends.trans grown) reachable (Trie.Extends.refl _)

/-- A child that was found or appended is found from then on, under every argument of the same position. -/
theorem ensureChild_of_reachable (valid : parent.index < progress.trie.size)
    (ensured : ensureChild parent argument progress = .ok id after)
    (reachable : Relation.ReflTransGen (Change settings) after later) {other : Argument}
    (same : argument.SamePosition other) : ensureChild parent other later = .ok id later := by
  apply ensureChild_of_findChild?
  rw [← Trie.findChild?_congr same]
  exact (extends_of_reachable reachable).findChild?_eq (findChild?_of_ensureChild valid ensured)

/-- A path that was walked is walked again to the same node, and nothing is appended on the way. -/
theorem ensurePath_of_reachable (valid : start.index < progress.trie.size)
    (walked : ensurePath start path progress = .ok id after)
    (reachable : Relation.ReflTransGen (Change settings) after later) (same : SamePath path other) :
    ensurePath start other later = .ok id later := by
  induction same generalizing start progress with
  | nil =>
    obtain ⟨rfl, rfl⟩ : start = id ∧ progress = after := by
      injection walked with here unchanged
      exact ⟨here, unchanged⟩
    rfl
  | cons first _ ih =>
    rw [ensurePath_cons] at walked
    split at walked
    · rename_i child between ensured
      have below := (ensurePath_reachable settings (ensureChild_valid ensured) walked).1
      rw [ensurePath_cons, ensureChild_of_reachable valid ensured (below.trans reachable) first]
      exact ih (ensureChild_valid ensured) walked
    · simp at walked

/-! ### One call -/

theorem ensureChild_of_isChildFor (formed : progress.trie.WellFormed)
    (present : progress.trie.IsChildFor parent argument id) :
    ensureChild parent argument progress = .ok id progress :=
  ensureChild_of_findChild? (formed.findChild?_eq_some_iff.mpr present)

/-- Where there is no child for an argument, a node is appended as long as there is a slot for it. -/
theorem ensureChild_of_absent (formed : progress.trie.WellFormed)
    (absent : ∀ child, ¬ progress.trie.IsChildFor parent argument child) :
    ensureChild parent argument progress =
      if free : progress.trie.size < NodeId.capacity then
        .ok ⟨progress.trie.size, free⟩
          { progress with
            trie := progress.trie.insertChild parent argument ⟨progress.trie.size, free⟩ rfl
            log := progress.log.push (.createdNode parent ⟨progress.trie.size, free⟩ argument) }
      else .error (.capacityExceeded progress.trie.size) progress := by
  rw [ensureChild_eq]
  split
  · rename_i child found
    exact absurd (formed.findChild?_eq_some_iff.mp found) (absent child)
  · rfl

/-- Slots are not given twice: whatever calls were made in between, two calls lead to one slot only if they look
below the same node under the same position. -/
theorem ensureChild_eq_iff (formed : progress.trie.WellFormed) (valid : parent.index < progress.trie.size)
    (ensured : ensureChild parent argument progress = .ok id after)
    (reachable : Relation.ReflTransGen (Change settings) after later) {otherParent otherId : NodeId}
    {other : Argument} {last : Progress γ ε} (valid' : otherParent.index < later.trie.size)
    (ensured' : ensureChild otherParent other later = .ok otherId last) :
    otherId = id ↔ otherParent = parent ∧ argument.SamePosition other := by
  have first : Change settings progress after := .child valid ensured
  have second : Change settings later last := .child valid' ensured'
  -- Both children are found in the trie at the end.
  have formed' : last.trie.WellFormed :=
    wellFormed_of_reachable ((Relation.ReflTransGen.head first reachable).tail second) formed
  have found : last.trie.findChild? parent argument = some id :=
    (extends_of_reachable (reachable.tail second)).findChild?_eq (findChild?_of_ensureChild valid ensured)
  exact formed'.findChild?_eq_iff found (findChild?_of_ensureChild valid' ensured')

/-! ### Walks -/

/-- A search that fails changes nothing. -/
theorem eq_of_ensureChild_error {error : CompileError}
    (failed : ensureChild parent argument progress = .error error after) : after = progress := by
  rw [ensureChild_eq] at failed
  split at failed
  · simp at failed
  · split at failed
    · simp at failed
    · injection failed with _ unchanged
      exact unchanged.symm

/-- A walk leaves a well-formed trie even if it fails, as the step that fails changes nothing. -/
theorem wellFormed_of_ensurePath_error (formed : progress.trie.WellFormed)
    (valid : start.index < progress.trie.size) {error : CompileError}
    (failed : ensurePath start path progress = .error error after) : after.trie.WellFormed := by
  induction path generalizing start progress with
  | nil => injection failed
  | cons argument path ih =>
    rw [ensurePath_cons] at failed
    split at failed
    · rename_i child between ensured
      have step : Change {} progress between := .child valid ensured
      exact ih (step.wellFormed formed) (ensureChild_valid ensured) failed
    · rename_i cause between stopped
      injection failed with _ last
      rw [← last, eq_of_ensureChild_error stopped]
      exact formed

/-- Where the nodes of a whole path have room, the path can be walked. -/
theorem exists_ensurePath_eq_ok (room : progress.trie.size + path.length ≤ NodeId.capacity)
    (start : NodeId) : ∃ id after, ensurePath start path progress = .ok id after :=
  exists_eq_ok_of_walks (ensurePath_endsInRoom (Nat.le_of_add_right_le room) start path)
    (ensurePath_walks start path progress) room

/-! ### Full arenas -/

/-- There are well-formed tries of every size up to that of a full arena: chains, to whose last node a child is
appended as long as there is a slot for it. -/
theorem exists_chain (links : Nat) (fits : links < NodeId.capacity) :
    ∃ (chain : Trie γ ε) (last : NodeId), chain.WellFormed ∧ chain.size = links + 1 ∧
      last.index < chain.size ∧ chain.children last = [] := by
  induction links with
  | zero => exact ⟨.empty, .root, .empty, rfl, Nat.one_pos, Trie.children_empty .root⟩
  | succ links ih =>
    obtain ⟨chain, last, formed, size, valid, childless⟩ := ih (Nat.lt_of_succ_lt fits)
    have absent : chain.findChild? last (.literal "link") = none := by
      rw [Trie.findChild?, childless, List.find?_nil]
    refine ⟨chain.insertChild last (.literal "link") ⟨links + 1, fits⟩ size.symm, ⟨links + 1, fits⟩,
      formed.insertChild size.symm valid absent, ?_, ?_, ?_⟩
    · rw [Trie.size_insertChild, size]
    · rw [Trie.size_insertChild, size]
      exact Nat.lt_succ_self _
    · -- The new node is in a slot that was free, so no child was listed for it.
      have differ : (⟨links + 1, fits⟩ : NodeId) ≠ last := by
        rintro rfl
        exact absurd size.symm valid.ne
      rw [Trie.children_insertChild size.symm valid, if_neg differ, Trie.children_eq_nil size.le]

/-! ### Any call in any well-formed trie -/

/-- Looking for the child of a node for an argument, in any well-formed trie. A child whose argument denotes the
same position is the only such child; it is found, and nothing changes. Where there is none, a node is appended in
the next slot, and nothing else changes; or all slots are taken, and then the call fails and nothing changes at
all. The trie stays well formed. Whatever calls follow, the child is found again under every argument of the same
position, and no other node and no other position leads to its slot. A path that can be walked is walked ever after
to the same node, under every description of its arguments, and it cannot be walked only if all slots are taken. -/
theorem ensureChild_finds_or_appends (formed : progress.trie.WellFormed)
    (valid : parent.index < progress.trie.size) (argument : Argument) :
    (∀ child, progress.trie.IsChildFor parent argument child →
      (∀ other, progress.trie.IsChildFor parent argument other → other = child) ∧
        ensureChild parent argument progress = .ok child progress) ∧
    ((∀ child, ¬ progress.trie.IsChildFor parent argument child) →
      (progress.trie.size < NodeId.capacity → ∃ id after,
        ensureChild parent argument progress = .ok id after ∧
          after.trie.AppendsTo progress.trie parent argument id ∧
          after.terminals = progress.terminals ∧
          after.log = progress.log.push (.createdNode parent id argument)) ∧
      (progress.trie.size = NodeId.capacity →
        ensureChild parent argument progress =
          .error (.capacityExceeded NodeId.capacity) progress)) ∧
    (∀ id after, ensureChild parent argument progress = .ok id after →
      after.trie.WellFormed ∧ id.index < after.trie.size ∧
        ∀ settings later, Relation.ReflTransGen (Change settings) after later →
          (∀ other, argument.SamePosition other →
            ensureChild parent other later = .ok id later) ∧
          ∀ otherParent other otherId last, otherParent.index < later.trie.size →
            ensureChild otherParent other later = .ok otherId last →
              (otherId = id ↔ otherParent = parent ∧ argument.SamePosition other)) ∧
    ∀ path,
      (progress.trie.size + path.length ≤ NodeId.capacity →
        ∃ id after, ensurePath parent path progress = .ok id after) ∧
      (∀ error after, ensurePath parent path progress = .error error after →
        error = .capacityExceeded NodeId.capacity ∧ after.trie.size = NodeId.capacity ∧
          after.trie.WellFormed) ∧
      ∀ id after, ensurePath parent path progress = .ok id after →
        after.trie.WellFormed ∧
          ∀ settings later, Relation.ReflTransGen (Change settings) after later →
            ∀ other, SamePath path other → ensurePath parent other later = .ok id later := by
  refine ⟨?_, ?_, ?_, ?_⟩
  · intro child present
    refine ⟨fun other present' => ?_, ensureChild_of_isChildFor formed present⟩
    rw [← formed.findChild?_eq_some_iff] at present present'
    exact Option.some_inj.mp (present'.symm.trans present)
  · intro absent
    rw [ensureChild_of_absent formed absent]
    constructor
    · intro free
      rw [dif_pos free]
      exact ⟨_, _, rfl, Trie.appendsTo_insertChild valid rfl, rfl, rfl⟩
    · intro full
      rw [dif_neg full.not_lt, full]
  · intro id after ensured
    have step : Change {} progress after := .child valid ensured
    refine ⟨step.wellFormed formed, ensureChild_valid ensured, fun settings later reachable => ⟨?_, ?_⟩⟩
    · intro other same
      exact ensureChild_of_reachable valid ensured reachable same
    · intro otherParent other otherId last valid' ensured'
      exact ensureChild_eq_iff formed valid ensured reachable valid' ensured'
  · intro path
    refine ⟨fun room => exists_ensurePath_eq_ok room parent, ?_, ?_⟩
    · intro error after failed
      have ends := ensurePath_endsInRoom formed.fits parent path
      rw [failed] at ends
      exact ⟨ends.1, ends.2, wellFormed_of_ensurePath_error formed valid failed⟩
    · intro id after walked
      refine ⟨wellFormed_of_reachable (ensurePath_reachable {} valid walked).1 formed, ?_⟩
      intro settings later reachable other same
      exact ensurePath_of_reachable valid walked reachable same

/-- In a new arena the first child takes slot one and is found again under another description. In a full one the
end of the chain cannot get a child. -/
theorem ensureChild_in_new_and_in_full_arena :
    (.start : Progress String String).trie.WellFormed ∧
    (∃ after : Progress String String,
      ensureChild .root (.typed "who" .player (some "a friend")) .start = .ok ⟨1, by decide⟩ after ∧
        ensureChild .root (.typed "who" .player none) after = .ok ⟨1, by decide⟩ after) ∧
    ∃ (full : Progress String String) (last : NodeId), full.trie.WellFormed ∧
      last.index < full.trie.size ∧
      ensureChild last (.literal "link") full = .error (.capacityExceeded NodeId.capacity) full := by
  have formed : (.start : Progress String String).trie.WellFormed := .empty
  have inside : NodeId.root.index < (.start : Progress String String).trie.size := Nat.one_pos
  refine ⟨formed, ?_, ?_⟩
  · obtain ⟨-, appends, again, -⟩ :=
      ensureChild_finds_or_appends formed inside (.typed "who" .player (some "a friend"))
    have absent : ∀ child, ¬ (.start : Progress String String).trie.IsChildFor .root
        (.typed "who" .player (some "a friend")) child := by
      rintro child ⟨mem, -⟩
      simp [Progress.start] at mem
    obtain ⟨id, after, ensured, appended, -, -⟩ := (appends absent).1 (by decide)
    obtain rfl : id = ⟨1, by decide⟩ := NodeId.ext appended.index_eq
    exact ⟨after, ensured, ((again _ _ ensured).2.2 {} after .refl).1 (.typed "who" .player none) rfl⟩
  · obtain ⟨chain, last, formed, size, valid, childless⟩ :
        ∃ (chain : Trie String String) (last : NodeId), chain.WellFormed ∧ chain.size = NodeId.capacity ∧
          last.index < chain.size ∧ chain.children last = [] :=
      exists_chain (NodeId.capacity - 1) (by decide)
    let full : Progress String String := ⟨chain, 0, #[]⟩
    have formed : full.trie.WellFormed := formed
    refine ⟨full, last, formed, valid, ?_⟩
    have absent : ∀ child, ¬ chain.IsChildFor last (.literal "link") child := by
      rintro child ⟨mem, -⟩
      simp [childless] at mem
    exact ((ensureChild_finds_or_appends formed valid (.literal "link")).2.1 absent).2 size

end Progress

end Dispatch
