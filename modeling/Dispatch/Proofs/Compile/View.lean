import Dispatch.Proofs.Compile.Order
import Dispatch.Proofs.Outline
import Dispatch.Proofs.Trie.Observation

/-!
# Views of a compiled trie

A compiled trie can be seen in several ways: by following paths and reading routes, by walking through all of
its nodes, by its layout and by its outline. It is well formed, so the ways of seeing it agree, and each of
them tells what the others tell.

## Main results

* `CompileUnit.lookup_inverts_routes` — nodes correspond to the classes of paths in the trie
* `CompileUnit.walks_agree` — the loop, the layout and the outline come by the same nodes
* `CompileUnit.text_eq_iff_sameLayout` — the outline tells the layout
* `CompileUnit.sameLayout_iff_looksAlike` — the layout is what can be seen along paths
-/

set_option autoImplicit false

namespace Dispatch.CompileUnit

open Argument

variable {γ ε γ' ε' : Type} {unit : CompileUnit γ ε} {settings : Settings} {trie : Trie γ ε}
  {unit' : CompileUnit γ' ε'} {settings' : Settings} {trie' : Trie γ' ε'}

/-! ### Paths and routes -/

/-- Every node of a compiled trie has exactly one route, and the route leads to the node. A path leads to
a node exactly if it denotes the positions of the node's route, and it leads nowhere exactly if no route
has its positions. So following paths is a bijection between the classes of the paths in the trie and
the nodes. -/
theorem lookup_inverts_routes (compiled : (unit.compile settings).result = .ok trie) :
    (∀ id : NodeId, id.index < trie.size → ∃! path, trie.Route id path) ∧
      (∀ id path, trie.Route id path → trie.lookup? path = some id ∧
        ∀ q, trie.lookup? q = some id ↔ SamePath q path) ∧
      (∀ q, trie.lookup? q = none ↔ ∀ id path, trie.Route id path → ¬ SamePath q path) ∧
      ∃ node : Quotient trie.passableClasses → {id : NodeId // id.index < trie.size},
        Function.Bijective node ∧
          ∀ q, trie.lookup? q.val = some (node (Quotient.mk _ q)).val := by
  have formed := wellFormed_of_compile compiled
  refine ⟨?_, ?_, ?_, formed.exists_bijective_node⟩
  · intro id inside
    exact formed.existsUnique_route inside
  · intro id path route
    exact ⟨formed.lookup?_of_route route, fun q => formed.lookup?_eq_some_iff route⟩
  · intro q
    exact formed.lookup?_eq_none_iff

/-- The usage `<to> return` ends at slot 4, whose route has the description of the usage that came first.
The slot is found without a description as well, but not under another kind. -/
theorem fares_routes : ∃ trie, (fares.compile {}).result = .ok trie ∧
    (∀ path, trie.Route ⟨4, by decide⟩ path ↔
      path = [.typed "to" .word (some "a town"), .literal "return"]) ∧
    trie.lookup? [.typed "to" .word none, .literal "return"] = some ⟨4, by decide⟩ ∧
    ¬ ∃ id path, trie.Route id path ∧ SamePath [.typed "to" .string none] path := by
  obtain ⟨trie, compiled⟩ := (exists_compile_eq_ok_iff {} fares).mpr ⟨by decide, by decide⟩
  obtain ⟨one, leads, missing, -⟩ := lookup_inverts_routes compiled
  have below : trie.children .root = [⟨1, by decide⟩, ⟨3, by decide⟩] :=
    eq_of_map_result (·.children .root) compiled (by decide +kernel)
  have further : trie.children ⟨1, by decide⟩ = [⟨2, by decide⟩, ⟨4, by decide⟩] :=
    eq_of_map_result (·.children ⟨1, by decide⟩) compiled (by decide +kernel)
  have first : trie.argument? ⟨1, by decide⟩ = some (.typed "to" .word (some "a town")) :=
    eq_of_map_result (·.argument? ⟨1, by decide⟩) compiled (by decide +kernel)
  have last : trie.argument? ⟨4, by decide⟩ = some (.literal "return") :=
    eq_of_map_result (·.argument? ⟨4, by decide⟩) compiled (by decide +kernel)
  have nowhere : trie.lookup? [.typed "to" .string none] = none :=
    eq_of_map_result (·.lookup? [.typed "to" .string none]) compiled (by decide +kernel)
  have route : trie.Route ⟨4, by decide⟩
      [.typed "to" .word (some "a town"), .literal "return"] :=
    (Trie.Route.root.step (by simp [below]) first).step (by simp [further]) last
  refine ⟨trie, compiled, fun path => ?_, ?_, ?_⟩
  · constructor
    · exact fun route' => (one _ route.lt_size).unique route' route
    · rintro rfl
      exact route
  · exact ((leads _ _ route).2 _).mpr (by decide)
  · rintro ⟨id, path, passed, same⟩
    exact (missing _).mp nowhere id path passed same

/-! ### Walks -/

/-- All walks through a compiled trie end and agree. The loop takes as many rounds as there are nodes and
yields every node once; the records of the layout and the lines of the outline are those of the nodes in
the same order. -/
theorem walks_agree (compiled : (unit.compile settings).result = .ok trie) : trie.WalksAgree := by
  have formed := wellFormed_of_compile compiled
  have layouts : trie.layout.nodes = trie.preorder.map (Layout.ofNode trie) := by
    rw [Trie.layout, Trie.nodes_ofNode, Trie.preorder_eq]
  have lines := formed.forall₂_linesFrom .root
  rw [← Trie.preorder_eq] at lines
  constructor
  case yields =>
    intro k
    exact Trie.head?_advance_iterate k [.root]
  case ends =>
    intro k
    rw [Trie.advance_iterate_eq_nil_iff, ← formed.length_preorder, Trie.preorder]
  case each_once =>
    intro id
    rw [formed.nodup_preorder.count]
    simp only [formed.mem_preorder_iff]
  case nodes_layout => exact layouts
  case record =>
    intro k id here
    refine ⟨Layout.ofNode trie id, ?_, Layout.argument_ofNode trie id, Layout.hasGuard_ofNode trie id,
      Layout.hasExecutor_ofNode trie id, Layout.hasTerminal_ofNode trie id⟩
    rw [layouts, List.getElem?_map, here, Option.map_some]
  case size_layout =>
    rw [Layout.size_eq_length_nodes, layouts, List.length_map, formed.length_preorder]
  case text_eq =>
    refine ⟨trie.linesFrom .root 0, rfl, ?_, ?_⟩
    · rw [← formed.length_preorder]
      exact lines.length_eq.symm
    · intro k id path here route
      obtain ⟨inside, rfl⟩ := List.getElem?_eq_some_iff.mp here
      have inside' : k < (trie.linesFrom .root 0).length := lines.length_eq ▸ inside
      -- The line is indented by some route of its node, and there is no other route.
      obtain ⟨path', route', text⟩ := lines.get inside inside'
      obtain rfl := formed.route_unique route' route
      rw [List.getElem?_eq_getElem inside']
      exact congrArg some text

/-- An example: the subcommands of `admin` are visited below the literals that its usages share with them,
and the alias of the first one comes last. -/
theorem sample_walks : ∃ trie, (sample.compile {}).result = .ok trie ∧ trie.WalksAgree ∧
    trie.preorder.map (·.index) = [0, 1, 3, 2, 4, 5] ∧ trie.advance^[5] [.root] ≠ [] ∧
    trie.advance^[6] [.root] = [] ∧
    trie.text = String.join ["(root) [guard]\n", "  reload [guard, exec]\n",
      "    <what:word> [guard, exec]\n", "  stop [guard, exec]\n", "  r [guard]\n",
      "    <what:word> [guard, exec]\n"] := by
  obtain ⟨trie, compiled⟩ := (exists_compile_eq_ok_iff {} sample).mpr ⟨by decide, by decide⟩
  have agree := walks_agree compiled
  have size : trie.size = 6 := eq_of_map_result Trie.size compiled (by decide +kernel)
  have order : trie.preorder.map (·.index) = [0, 1, 3, 2, 4, 5] :=
    eq_of_map_result (fun trie => trie.preorder.map (·.index)) compiled (by decide +kernel)
  refine ⟨trie, compiled, agree, order, ?_, ?_, ?_⟩
  · rw [Ne, agree.ends, size]
    decide
  · rw [agree.ends, size]
  · exact eq_of_map_result Trie.text compiled (by decide +kernel)

/-! ### Layouts and outlines -/

/-- The arguments of a compiled trie stand in the paths that the commands name. -/
theorem exists_visited_of_argument? {id : NodeId} {a : Argument}
    (compiled : (unit.compile settings).result = .ok trie) (labelled : trie.argument? id = some a) :
    ∃ path ∈ unit.visited, a ∈ path := by
  have numbered := numbering_of_compile compiled
  have inside : id.index < unit.paths.length := by
    rw [numbered.length_eq]
    by_contra outside
    simp [Trie.argument?, Trie.node?_eq_none (not_lt.mp outside)] at labelled
  have last := spelledBy_of_compile compiled id _ (List.getElem?_eq_getElem inside)
  rw [labelled] at last
  have mem : a ∈ unit.paths[id.index] := List.mem_of_getLast? last.symm
  -- The path of the node is a beginning of a named path, as the root has no argument.
  rcases mem_enterAll (List.getElem_mem inside) with root | ⟨entered, -⟩
  · simp [List.mem_singleton.mp root] at mem
  · obtain ⟨path, named, begins⟩ := List.mem_flatMap.mp entered
    exact ⟨path, named, (mem_beginnings.mp begins).2.subset mem⟩

/-- If all arguments are such as patterns hold, the outlines of compiled tries are equal exactly if their
layouts are, descriptions aside. -/
theorem text_eq_iff_sameLayout (compiled : (unit.compile settings).result = .ok trie)
    (compiled' : (unit'.compile settings').result = .ok trie')
    (inPatterns : ∀ id a, trie.argument? id = some a → a.InPatterns)
    (inPatterns' : ∀ id a, trie'.argument? id = some a → a.InPatterns) :
    trie.text = trie'.text ↔ trie.sameLayout trie' = true := by
  apply (wellFormed_of_compile compiled).text_eq_iff (wellFormed_of_compile compiled')
  · intro id a labelled
    exact inPatterns_iff.mp (inPatterns id a labelled)
  · intro id a labelled
    exact inPatterns_iff.mp (inPatterns' id a labelled)

/-- A command with one usage for each of some keywords. -/
def keywords (texts : List String) : CompileUnit String Nat :=
  .alone
    { name := "keywords"
      aliases := []
      guard := none
      executor := none
      usages := texts.map fun text => ⟨[.literal text], some 1, none⟩
      subcommands := [] }

/-- The condition on the arguments is needed: one keyword that no pattern holds can look like two. -/
example : ((keywords ["on [exec]\n  off"]).compile {}).result.map Trie.text =
    ((keywords ["on", "off"]).compile {}).result.map Trie.text := by
  decide +kernel

/-- The usages of `fares` without descriptions, and grouped by their first arguments. -/
def groupedFares : CompileUnit String Nat :=
  .alone
    { name := "fares"
      aliases := []
      guard := none
      executor := none
      usages :=
        [⟨[.typed "to" .word none, .literal "single"], some 1, none⟩,
          ⟨[.typed "to" .word none, .literal "return"], some 2, none⟩,
          ⟨[.literal "list"], some 3, none⟩]
      subcommands := [] }

/-- Both ways of writing the usages are compiled to tries of one layout, in which the slots differ. -/
theorem exists_fares_tries : ∃ trie trie', (fares.compile {}).result = .ok trie ∧
    (groupedFares.compile {}).result = .ok trie' ∧ trie.sameLayout trie' = true ∧
    trie.lookup? [.typed "to" .word none, .literal "return"] = some ⟨4, by decide⟩ ∧
    trie'.lookup? [.typed "to" .word none, .literal "return"] = some ⟨3, by decide⟩ := by
  obtain ⟨trie, compiled⟩ := (exists_compile_eq_ok_iff {} fares).mpr ⟨by decide, by decide⟩
  obtain ⟨trie', compiled'⟩ := (exists_compile_eq_ok_iff {} groupedFares).mpr ⟨by decide, by decide⟩
  have compared : (groupedFares.compile {}).result.map (trie.sameLayout ·) = .ok true :=
    eq_of_map_result (fun trie => (groupedFares.compile {}).result.map (trie.sameLayout ·))
      compiled (by decide +kernel)
  have slot : trie.lookup? [.typed "to" .word none, .literal "return"] = some ⟨4, by decide⟩ :=
    eq_of_map_result (·.lookup? [.typed "to" .word none, .literal "return"]) compiled
      (by decide +kernel)
  have slot' : trie'.lookup? [.typed "to" .word none, .literal "return"] = some ⟨3, by decide⟩ :=
    eq_of_map_result (·.lookup? [.typed "to" .word none, .literal "return"]) compiled'
      (by decide +kernel)
  exact ⟨trie, trie', compiled, compiled', eq_of_map_result _ compiled' compared, slot, slot'⟩

/-- Neither the descriptions nor the slots show in the outline. -/
theorem fares_text_eq : ∃ trie trie', (fares.compile {}).result = .ok trie ∧
    (groupedFares.compile {}).result = .ok trie' ∧ trie.text = trie'.text := by
  obtain ⟨trie, trie', compiled, compiled', same, -⟩ := exists_fares_tries
  have tokens : ∀ path ∈ fares.visited, ∀ a ∈ path, a.IsToken := by decide
  have tokens' : ∀ path ∈ groupedFares.visited, ∀ a ∈ path, a.IsToken := by decide
  refine ⟨trie, trie', compiled, compiled', (text_eq_iff_sameLayout compiled compiled' ?_ ?_).mpr same⟩
  · intro id a labelled
    obtain ⟨path, named, mem⟩ := exists_visited_of_argument? compiled labelled
    exact inPatterns_iff.mpr (tokens path named a mem)
  · intro id a labelled
    obtain ⟨path, named, mem⟩ := exists_visited_of_argument? compiled' labelled
    exact inPatterns_iff.mpr (tokens' path named a mem)

/-- Compiled tries have the same layout exactly if they cannot be told apart along paths: the same paths
lead to nodes, and nodes at the end of the same path have the same parts of a terminal and children that
denote the same positions, one by one. -/
theorem sameLayout_iff_looksAlike (compiled : (unit.compile settings).result = .ok trie)
    (compiled' : (unit'.compile settings').result = .ok trie') :
    trie.sameLayout trie' = true ↔ ∀ path,
      ((trie.lookup? path).isSome ↔ (trie'.lookup? path).isSome) ∧
      ∀ i j, trie.lookup? path = some i → trie'.lookup? path = some j → trie.LooksAlike trie' i j := by
  have formed := wellFormed_of_compile compiled
  have formed' := wellFormed_of_compile compiled'
  constructor
  · intro same path
    have related := Trie.lookup?_rel_of_sameLayout same path
    generalize trie.lookup? path = first at related ⊢
    generalize trie'.lookup? path = second at related ⊢
    cases related with
    | some same =>
      refine ⟨by simp, ?_⟩
      rintro i j ⟨⟩ ⟨⟩
      exact Trie.looksAlike_of_same same
    | none => simp
  · intro alike
    have root : trie.argument? .root = none := (formed.argument?_eq_none_iff .root trie.nonempty).mpr rfl
    have root' : trie'.argument? .root = none :=
      (formed'.argument?_eq_none_iff .root trie'.nonempty).mpr rfl
    apply formed.same_ofNode_of_looksAlike formed' (fun path => (alike path).2)
    · exact Trie.lookup?_nil
    · exact Trie.lookup?_nil
    · rw [root, root']
      exact .none

/-- The usage `<to> return` ends at nodes that look alike, although their slots differ. -/
theorem fares_looksAlike : ∃ trie trie', (fares.compile {}).result = .ok trie ∧
    (groupedFares.compile {}).result = .ok trie' ∧
    trie.LooksAlike trie' ⟨4, by decide⟩ ⟨3, by decide⟩ := by
  obtain ⟨trie, trie', compiled, compiled', same, slot, slot'⟩ := exists_fares_tries
  exact ⟨trie, trie', compiled, compiled',
    ((sameLayout_iff_looksAlike compiled compiled').mp same _).2 _ _ slot slot'⟩

end Dispatch.CompileUnit
