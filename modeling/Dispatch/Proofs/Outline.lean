import Dispatch.Proofs.Token
import Dispatch.Proofs.Trie.Walk

/-!
# The outline tells the layout

A line of an outline is made from a heading: how deep the node stands, which position its argument denotes,
and which parts of a terminal it has. If the arguments are those that patterns hold, no line is made from
two headings and no break is taken for a part of a line. The depths tell where the nodes below a node end,
so the headings of a layout determine it, descriptions aside.

## Main definitions

* `Heading` — what a line tells about its node
* `Heading.written`, `Heading.read` — the line that is made from a heading, and back
* `Layout.headings` — the headings of the nodes of a layout, each one before those below it

## Main results

* `Heading.read_written` — a legible heading is read back from its line
* `Layout.headings_append_inj` — the headings of a layout can be told from what follows them
* `Layout.headings_eq_iff` — layouts of equal headings are the same
* `Trie.toList_text` — the outline of a trie is made from the headings of its layout
* `Trie.WellFormed.text_eq_iff` — tries of the same layout are those of the same outline
-/

set_option autoImplicit false

namespace Dispatch

open Argument Text

/-! ### Lines -/

/-- What a line of the outline tells about its node. -/
structure Heading where
  depth : Nat
  /-- absent only at the root -/
  position : Option Position
  hasGuard : Bool
  hasExecutor : Bool
deriving DecidableEq

namespace Heading

variable {heading : Heading}

/-- How the parts of a terminal are noted at the end of a line. -/
def marks : Bool → Bool → List Char
  | false, false => []
  | true, false => " [guard]".toList
  | false, true => " [exec]".toList
  | true, true => " [guard, exec]".toList

/-- How the argument is written. -/
def name (heading : Heading) : List Char :=
  ((heading.position.map fun position => position.argument.display).getD "(root)").toList

/-- The line that is made from a heading. -/
def written (heading : Heading) : List Char :=
  List.replicate (2 * heading.depth) ' ' ++
    (heading.name ++ marks heading.hasGuard heading.hasExecutor)

/-- The heading that a line is made from: the blanks in front tell the depth, and the name ends at the next
blank. -/
def read (line : List Char) : Heading :=
  let depth := (line.takeWhile (· = ' ')).length / 2
  let words := line.dropWhile (· = ' ')
  let noted := words.dropWhile (· ≠ ' ')
  { depth := depth
    position :=
      if depth = 0 then none
      else (parse (String.ofList (words.takeWhile (· ≠ ' ')))).toOption.map Argument.position
    hasGuard := noted = marks true false ∨ noted = marks true true
    hasExecutor := noted = marks false true ∨ noted = marks true true }

/-- A heading that can be read from its line: it is that of a root, or its argument is one of those that
patterns hold. -/
def Legible (heading : Heading) : Prop :=
  match heading.position with
  | none => heading.depth = 0
  | some position => 0 < heading.depth ∧ position.argument.IsToken

theorem Legible.solid_name (legible : heading.Legible) :
    heading.name ≠ [] ∧ ∀ c ∈ heading.name, isBlank c = false := by
  rw [Legible] at legible
  rw [name]
  split at legible
  · rename_i root
    have solid : "(root)".toList.all (!isBlank ·) := by decide
    rw [root]
    exact ⟨by decide, by simpa using solid⟩
  · rename_i position here
    rw [here]
    exact legible.2.solid_display

/-- The marks are set off by a blank. -/
theorem takeWhile_marks (hasGuard hasExecutor : Bool) :
    (marks hasGuard hasExecutor).takeWhile (· ≠ ' ') = [] ∧
      (marks hasGuard hasExecutor).dropWhile (· ≠ ' ') = marks hasGuard hasExecutor := by
  cases hasGuard <;> cases hasExecutor <;> decide

/-- Each part is told by the marks. -/
theorem read_marks (hasGuard hasExecutor : Bool) :
    decide (marks hasGuard hasExecutor = marks true false ∨
        marks hasGuard hasExecutor = marks true true) = hasGuard ∧
      decide (marks hasGuard hasExecutor = marks false true ∨
        marks hasGuard hasExecutor = marks true true) = hasExecutor := by
  cases hasGuard <;> cases hasExecutor <;> decide

/-- The blanks in front end where the name begins. -/
theorem Legible.indented (legible : heading.Legible) :
    heading.written.takeWhile (· = ' ') = List.replicate (2 * heading.depth) ' ' ∧
      heading.written.dropWhile (· = ' ') =
        heading.name ++ marks heading.hasGuard heading.hasExecutor := by
  obtain ⟨proper, solid⟩ := legible.solid_name
  obtain ⟨c, rest, named⟩ := List.exists_cons_of_ne_nil proper
  have first : c ≠ ' ' := by
    rintro rfl
    exact absurd (solid ' ' (named ▸ List.mem_cons_self)) (by decide)
  rw [written, List.takeWhile_append_of_pos (by simp), List.dropWhile_append_of_pos (by simp), named]
  simp [first]

/-- The name ends where the marks begin. -/
theorem Legible.marked (legible : heading.Legible) :
    (heading.name ++ marks heading.hasGuard heading.hasExecutor).takeWhile (· ≠ ' ') = heading.name ∧
      (heading.name ++ marks heading.hasGuard heading.hasExecutor).dropWhile (· ≠ ' ') =
        marks heading.hasGuard heading.hasExecutor := by
  have other : ∀ c ∈ heading.name, c ≠ ' ' := by
    rintro c mem rfl
    exact absurd (legible.solid_name.2 ' ' mem) (by decide)
  obtain ⟨noMarks, allMarks⟩ := takeWhile_marks heading.hasGuard heading.hasExecutor
  constructor
  · rw [List.takeWhile_append_of_pos (by simpa using other), noMarks, List.append_nil]
  · rw [List.dropWhile_append_of_pos (by simpa using other), allMarks]

/-- The depth and the name tell the position. -/
theorem Legible.position_eq (legible : heading.Legible) :
    (if heading.depth = 0 then none
      else (parse (String.ofList heading.name)).toOption.map Argument.position) = heading.position := by
  rw [Legible] at legible
  rw [name]
  split at legible
  · rename_i root
    rw [root, if_pos legible]
  · rename_i position here
    rw [here, if_neg (Nat.ne_of_gt legible.1), Option.map_some, Option.getD_some, String.ofList_toList,
      legible.2.parse_display, Except.toOption, Option.map_some, Position.position_argument,
      Position.position_argument]

/-- A legible heading is read back from its line. -/
theorem read_written (legible : heading.Legible) : read heading.written = heading := by
  have depth : (heading.written.takeWhile (· = ' ')).length / 2 = heading.depth := by
    rw [legible.indented.1, List.length_replicate]
    omega
  rw [read, depth, legible.indented.2, legible.marked.1, legible.marked.2]
  simp only [legible.position_eq, read_marks]

/-- An example: the blanks, the name and the marks are told apart. -/
example : read "  reload [guard, exec]".toList = ⟨1, some (.keyword "reload"), true, true⟩ := by
  decide

theorem map_read_written {headings : List Heading} (legible : ∀ heading ∈ headings, heading.Legible) :
    (headings.map written).map read = headings := by
  have back : ∀ heading ∈ headings, (read ∘ written) heading = id heading := fun heading mem =>
    read_written (legible heading mem)
  rw [List.map_map, List.map_congr_left back, List.map_id]

/-- No line is broken in two. -/
theorem Legible.notMem_written (legible : heading.Legible) : '\n' ∉ heading.written := by
  have solid := legible.solid_name.2
  have unmarked : '\n' ∉ marks heading.hasGuard heading.hasExecutor := by
    cases heading.hasGuard <;> cases heading.hasExecutor <;> decide
  rw [written, List.mem_append, List.mem_append]
  rintro (indented | named | marked)
  · exact absurd (List.eq_of_mem_replicate indented) (by decide)
  · exact absurd (solid '\n' named) (by decide)
  · exact unmarked marked

end Heading

/-- Texts without breaks are told apart where a break follows each of them. -/
theorem append_break_inj {line other rest rest' : List Char} (whole : '\n' ∉ line) (whole' : '\n' ∉ other)
    (same : line ++ '\n' :: rest = other ++ '\n' :: rest') : line = other ∧ rest = rest' := by
  have lines : ∀ {line rest : List Char}, '\n' ∉ line →
      (line ++ '\n' :: rest).takeWhile (· ≠ '\n') = line := by
    intro line rest whole
    rw [List.takeWhile_append_of_pos]
    · simp
    · intro c mem
      simpa using fun same : c = '\n' => whole (same ▸ mem)
  obtain rfl : line = other := by rw [← lines whole, same, lines whole']
  exact ⟨rfl, by simpa using same⟩

theorem flatMap_break_inj {lines others : List (List Char)} (whole : ∀ line ∈ lines, '\n' ∉ line)
    (whole' : ∀ line ∈ others, '\n' ∉ line)
    (same : lines.flatMap (· ++ ['\n']) = others.flatMap (· ++ ['\n'])) : lines = others := by
  induction lines generalizing others with
  | nil => cases others <;> simp at same ⊢
  | cons line lines ih =>
    cases others with
    | nil => simp at same
    | cons other others =>
      simp only [List.flatMap_cons, List.append_assoc, List.singleton_append] at same
      obtain ⟨first, later⟩ := List.forall_mem_cons.mp whole
      obtain ⟨first', later'⟩ := List.forall_mem_cons.mp whole'
      obtain ⟨rfl, behind⟩ := append_break_inj first first' same
      rw [ih later later' behind]

/-! ### Headings -/

namespace Layout

variable {layout other : Layout} {depth : Nat} {rest rest' : List Heading}
  {children others : List Layout}

mutual

/-- The headings of the nodes of a layout whose topmost node stands at a given depth. -/
def headings (depth : Nat) : Layout → List Heading
  | node argument hasGuard hasExecutor children =>
    ⟨depth, argument.map position, hasGuard, hasExecutor⟩ :: headingsOf (depth + 1) children

/-- The headings of several layouts in order. -/
def headingsOf (depth : Nat) : List Layout → List Heading
  | [] => []
  | layout :: rest => layout.headings depth ++ headingsOf depth rest

end

theorem headingsOf_eq (depth : Nat) (layouts : List Layout) :
    headingsOf depth layouts = layouts.flatMap (headings depth) := by
  induction layouts with
  | nil => rfl
  | cons layout layouts ih => rw [headingsOf, ih, List.flatMap_cons]

theorem exists_headings_eq_cons (depth : Nat) (layout : Layout) :
    ∃ heading rest, layout.headings depth = heading :: rest ∧ heading.depth = depth := by
  obtain ⟨argument, hasGuard, hasExecutor, children⟩ := layout
  exact ⟨_, _, by rw [headings], rfl⟩

/-- What follows the headings of some layouts stands less deep than these. -/
def EndsAt (depth : Nat) (rest : List Heading) : Prop := ∀ heading ∈ rest.head?, heading.depth < depth

theorem EndsAt.not_cons {heading : Heading} (ends : EndsAt depth (heading :: rest)) :
    heading.depth ≠ depth := (ends heading rfl).ne

/-- Layouts at a depth are followed by nothing that is deeper. -/
theorem EndsAt.flatMap_append (ends : EndsAt depth rest) (layouts : List Layout) :
    EndsAt (depth + 1) (layouts.flatMap (headings depth) ++ rest) := by
  intro next mem
  cases layouts with
  | nil => exact (ends next mem).trans (Nat.lt_succ_self depth)
  | cons layout layouts =>
    obtain ⟨heading, more, first, deep⟩ := exists_headings_eq_cons depth layout
    rw [List.flatMap_cons, first] at mem
    obtain rfl : heading = next := by simpa using mem
    omega

/-- If each of some layouts can be told from what follows it, so can all of them together. -/
theorem forall₂_same_of_headings (told : ∀ child ∈ children, ∀ {other : Layout} {rest rest' : List Heading},
      EndsAt (depth + 1) rest → EndsAt (depth + 1) rest' →
      child.headings depth ++ rest = other.headings depth ++ rest' → child.same other ∧ rest = rest')
    (ends : EndsAt depth rest) (ends' : EndsAt depth rest')
    (equal : children.flatMap (headings depth) ++ rest = others.flatMap (headings depth) ++ rest') :
    List.Forall₂ (fun child other => child.same other) children others ∧ rest = rest' := by
  induction children generalizing others with
  | nil =>
    cases others with
    | nil => exact ⟨.nil, equal⟩
    | cons other others =>
      -- What follows would begin with a heading at the depth of the other layouts.
      obtain ⟨heading, more, first, deep⟩ := exists_headings_eq_cons depth other
      rw [List.flatMap_nil, List.nil_append, List.flatMap_cons, first] at equal
      exact absurd deep (equal ▸ ends).not_cons
  | cons child children ih =>
    cases others with
    | nil =>
      obtain ⟨heading, more, first, deep⟩ := exists_headings_eq_cons depth child
      rw [List.flatMap_nil, List.nil_append, List.flatMap_cons, first] at equal
      exact absurd deep (equal ▸ ends').not_cons
    | cons other others =>
      obtain ⟨this, later⟩ := List.forall_mem_cons.mp told
      rw [List.flatMap_cons, List.flatMap_cons, List.append_assoc, List.append_assoc] at equal
      obtain ⟨same, equal⟩ := this (ends.flatMap_append children) (ends'.flatMap_append others) equal
      obtain ⟨sameLater, equal⟩ := ih later equal
      exact ⟨.cons same sameLater, equal⟩

/-- The headings of a layout can be told from what follows them, and they tell the layout. -/
theorem headings_append_inj (layout : Layout) {depth : Nat} {other : Layout} {rest rest' : List Heading}
    (ends : EndsAt (depth + 1) rest) (ends' : EndsAt (depth + 1) rest')
    (equal : layout.headings depth ++ rest = other.headings depth ++ rest') :
    layout.same other ∧ rest = rest' := by
  induction layout generalizing depth other rest rest' with
  | node argument hasGuard hasExecutor children ih =>
    obtain ⟨argument', hasGuard', hasExecutor', others⟩ := other
    rw [headings, headings, headingsOf_eq, headingsOf_eq, List.cons_append, List.cons_append] at equal
    obtain ⟨top, equal⟩ := List.cons.inj equal
    obtain ⟨-, arguments, guards, executors⟩ := Heading.mk.inj top
    obtain ⟨below, equal⟩ := forall₂_same_of_headings (fun child mem => ih child mem) ends ends' equal
    exact ⟨same_node_iff.mpr ⟨arguments, guards, executors, below⟩, equal⟩

theorem flatMap_headings_congr
    (agree : ∀ child ∈ children, ∀ other : Layout, child.same other →
      child.headings depth = other.headings depth)
    (same : List.Forall₂ (fun child other => child.same other) children others) :
    children.flatMap (headings depth) = others.flatMap (headings depth) := by
  induction same with
  | nil => rfl
  | cons first _ ih =>
    obtain ⟨this, later⟩ := List.forall_mem_cons.mp agree
    rw [List.flatMap_cons, List.flatMap_cons, this _ first, ih later]

/-- Layouts that are the same have the same headings. -/
theorem headings_eq_of_same (same : layout.same other) : layout.headings depth = other.headings depth := by
  induction layout generalizing depth other with
  | node argument hasGuard hasExecutor children ih =>
    obtain ⟨argument', hasGuard', hasExecutor', others⟩ := other
    obtain ⟨arguments, rfl, rfl, below⟩ := same_node_iff.mp same
    rw [headings, headings, headingsOf_eq, headingsOf_eq, arguments,
      flatMap_headings_congr (fun child mem _ => ih child mem) below]

/-- Layouts of equal headings are the same, and no others are. -/
theorem headings_eq_iff (depth : Nat) :
    layout.headings depth = other.headings depth ↔ layout.same other := by
  constructor
  · intro equal
    have nothing : EndsAt (depth + 1) [] := by simp [EndsAt]
    exact (headings_append_inj layout nothing nothing (by rw [equal])).1
  · exact headings_eq_of_same

end Layout

/-! ### Outlines of tries -/

namespace Trie

variable {γ ε γ' ε' : Type} {trie : Trie γ ε} {other : Trie γ' ε'}

/-- The heading of a node that stands at a given depth. -/
def heading (trie : Trie γ ε) (depth : Nat) (id : NodeId) : Heading where
  depth := depth
  position := (trie.argument? id).map Argument.position
  hasGuard := (trie.terminal? id).any (·.guard.isSome)
  hasExecutor := (trie.terminal? id).any (·.executor.isSome)

theorem headings_ofNode (trie : Trie γ ε) (id : NodeId) (depth : Nat) :
    (Layout.ofNode trie id).headings depth = trie.heading depth id ::
      (trie.children id).flatMap fun child => (Layout.ofNode trie child).headings (depth + 1) := by
  rw [Layout.ofNode_eq, Layout.headings, Layout.headingsOf_eq, List.flatMap_map]
  rfl

theorem toList_marks (terminal? : Option (Terminal γ ε)) : ((terminal?.map marks).getD "").toList =
    Heading.marks (terminal?.any (·.guard.isSome)) (terminal?.any (·.executor.isSome)) := by
  rcases terminal? with _ | ⟨guard, executor, present⟩
  · rfl
  · -- A terminal has one of its parts at least.
    cases guard <;> cases executor
    · exact absurd present Bool.false_ne_true
    all_goals rfl

/-- The line of a node is made from its heading. -/
theorem toList_line (trie : Trie γ ε) (depth : Nat) (id : NodeId) :
    (trie.line depth id).toList = (trie.heading depth id).written := by
  have name : ((trie.argument? id).map Argument.display).getD "(root)" =
      ((trie.heading depth id).position.map fun position => position.argument.display).getD "(root)" := by
    rw [heading]
    cases trie.argument? id with
    | none => rfl
    | some a => exact (display_argument_position a).symm
  rw [line, label, String.toList_append, String.toList_append, String.toList_ofList, name, toList_marks]
  rfl

theorem map_toList_linesFrom (trie : Trie γ ε) (id : NodeId) (depth : Nat) :
    (trie.linesFrom id depth).map String.toList =
      ((Layout.ofNode trie id).headings depth).map Heading.written := by
  induction id using trie.descent_induct generalizing depth with
  | node id ih =>
    rw [linesFrom_eq, headings_ofNode, List.map_cons, List.map_cons, toList_line, List.map_flatMap,
      List.map_flatMap]
    congr 1
    exact List.flatMap_congr fun child edge => ih child edge (depth + 1)

/-- The outline is made from the headings of the layout, each of them on its own line. -/
theorem toList_text (trie : Trie γ ε) :
    trie.text.toList = ((trie.layout.headings 0).map Heading.written).flatMap (· ++ ['\n']) := by
  rw [text, String.toList_join, layout, ← map_toList_linesFrom, List.flatMap_map, List.flatMap_map]
  simp only [String.toList_append]
  rfl

/-- If all arguments are tokens, all headings can be read. -/
theorem WellFormed.legible_headings (formed : trie.WellFormed)
    (tokens : ∀ id a, trie.argument? id = some a → a.IsToken) {id : NodeId} {depth : Nat}
    (top : (trie.heading depth id).Legible) :
    ∀ heading ∈ (Layout.ofNode trie id).headings depth, heading.Legible := by
  induction id using trie.descent_induct generalizing depth with
  | node id ih =>
    rw [headings_ofNode, List.forall_mem_cons]
    refine ⟨top, fun heading mem => ?_⟩
    obtain ⟨child, edge, mem⟩ := List.mem_flatMap.mp mem
    refine ih child edge ?_ heading mem
    obtain ⟨a, labelled⟩ := formed.exists_argument?_of_mem edge
    have token : a.position.argument.IsToken :=
      (IsToken.congr a.position.position_argument).mpr (tokens child a labelled)
    rw [Trie.heading, labelled]
    exact ⟨Nat.succ_pos depth, token⟩

theorem WellFormed.legible_layout (formed : trie.WellFormed)
    (tokens : ∀ id a, trie.argument? id = some a → a.IsToken) :
    ∀ heading ∈ trie.layout.headings 0, heading.Legible := by
  apply formed.legible_headings tokens
  have root : trie.argument? .root = none := (formed.argument?_eq_none_iff .root trie.nonempty).mpr rfl
  rw [heading, root]
  exact rfl

/-- Tries whose arguments are tokens have the same outline if and only if they have the same layout. -/
theorem WellFormed.text_eq_iff (formed : trie.WellFormed) (otherFormed : other.WellFormed)
    (tokens : ∀ id a, trie.argument? id = some a → a.IsToken)
    (otherTokens : ∀ id a, other.argument? id = some a → a.IsToken) :
    trie.text = other.text ↔ trie.sameLayout other := by
  have legible := formed.legible_layout tokens
  have otherLegible := otherFormed.legible_layout otherTokens
  rw [← String.toList_inj, toList_text, toList_text, sameLayout, ← Layout.headings_eq_iff 0]
  constructor
  · intro texts
    have lines : (trie.layout.headings 0).map Heading.written =
        (other.layout.headings 0).map Heading.written := by
      apply flatMap_break_inj _ _ texts
      · exact List.forall_mem_map.mpr fun heading mem => (legible heading mem).notMem_written
      · exact List.forall_mem_map.mpr fun heading mem => (otherLegible heading mem).notMem_written
    -- What was written is read back line by line.
    have read := congrArg (List.map Heading.read) lines
    rwa [Heading.map_read_written legible, Heading.map_read_written otherLegible] at read
  · intro equal
    rw [equal]

end Trie

end Dispatch
