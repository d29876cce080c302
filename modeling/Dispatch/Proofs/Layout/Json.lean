import Dispatch.Layout.Json
import Dispatch.Proofs.Compile.Description
import Dispatch.Proofs.Json
import Dispatch.Proofs.Layout

/-!
# Reading layouts from JSON

A layout is read back from its JSON form, every field of it, whichever members are left out because there is
nothing to tell and in whichever order the others stand. So the form tells apart what the comparison of layouts
does not: descriptions.

## Main definitions

* `Argument.ofJson?`, `Layout.ofJson?` — the argument and the layout that have a JSON form
* `Layout.mapArguments` — a layout with other arguments

## Main results

* `Layout.member?_toJson` — which members stand in the form and which are left out
* `Layout.ofJson?_toJson` — a layout is read back from its JSON form
* `Layout.ofJson?_congr` — the order of members does not matter for what is read
* `Layout.same_iff_undescribed` — layouts are the same if and only if they are equal without descriptions
* `Layout.toJson_determines` — the JSON form of a layout determines it
-/

set_option autoImplicit false

namespace Dispatch

open Argument

/-! ### Reading members -/

namespace Json

/-- The value of a boolean. -/
def boolean? : Json → Option Bool
  | boolean value => some value
  | _ => none

/-- The text of a text. -/
def text? : Json → Option String
  | text value => some value
  | _ => none

/-- The value of a member of an object. -/
def member? (json : Json) (name : String) : Option Json :=
  match json with
  | object members => members.lookup name
  | _ => none

/-- What is read from a member that may be left out. -/
def optional? {α : Type} (json : Json) (name : String) (read : Json → Option α) : Option (Option α) :=
  match json.member? name with
  | none => some none
  | some value => (read value).map some

variable {json other : Json} {α : Type}

theorem Alike.boolean?_eq (alike : json.Alike other) : json.boolean? = other.boolean? := by
  cases alike <;> rfl

theorem Alike.text?_eq (alike : json.Alike other) : json.text? = other.text? := by
  cases alike <;> rfl

theorem Alike.member? (alike : json.Alike other) (name : String) :
    Option.Rel Alike (json.member? name) (other.member? name) := by
  cases alike with
  | object each => exact each name
  | _ => exact .none

theorem Alike.bind_member?_eq (alike : json.Alike other) (name : String) {read : Json → Option α}
    (reads : ∀ value value', value.Alike value' → read value = read value') :
    (json.member? name).bind read = (other.member? name).bind read := by
  have found := alike.member? name
  generalize json.member? name = value, other.member? name = value' at found ⊢
  cases found with
  | none => rfl
  | some inside => exact reads _ _ inside

theorem Alike.optional?_eq (alike : json.Alike other) (name : String) {read : Json → Option α}
    (reads : ∀ value value', value.Alike value' → read value = read value') :
    json.optional? name read = other.optional? name read := by
  have found := alike.member? name
  unfold optional?
  generalize json.member? name = value, other.member? name = value' at found ⊢
  cases found with
  | none => rfl
  | some inside => exact congrArg (Option.map some) (reads _ _ inside)

end Json

/-! ### Reading arguments -/

namespace Argument

/-- The argument that an object stands for, by its tag. -/
def ofJson? (json : Json) : Option Argument := do
  match ← (json.member? "type").bind Json.text? with
  | "literal" => return literal (← (json.member? "text").bind Json.text?)
  | "typed" =>
    let name ← (json.member? "name").bind Json.text?
    let kind ← Kind.ofSpelling? (← (json.member? "kind").bind Json.text?)
    return typed name kind (← json.optional? "description" Json.text?)
  | _ => none

theorem ofJson?_congr {json other : Json} (alike : json.Alike other) : ofJson? json = ofJson? other := by
  have texts : ∀ name, (json.member? name).bind Json.text? = (other.member? name).bind Json.text? :=
    fun name => alike.bind_member?_eq name fun _ _ => Json.Alike.text?_eq
  have hint := alike.optional?_eq "description" fun _ _ => Json.Alike.text?_eq
  simp only [ofJson?, texts, hint]

/-- An argument is read back, whether or not it has a description. -/
theorem ofJson?_toJson (argument : Argument) : ofJson? argument.toJson = some argument := by
  cases argument with
  | literal text => rfl
  | typed name kind description =>
    cases description <;>
      simp [ofJson?, toJson, Json.member?, Json.optional?, Json.text?, Kind.ofSpelling?_name, List.lookup_cons]

/-- Only one keyword denotes a position. -/
theorem eq_of_samePosition {a b : Argument} (literal : a.isLiteral) (same : a.SamePosition b) : a = b := by
  cases a <;> cases b <;> simp_all [SamePosition, position, isLiteral]

/-- The same placeholder with a description if it has none, and without one otherwise. -/
def redescribed : Argument → Argument
  | literal text => literal text
  | typed name kind none => typed name kind (some "")
  | typed name kind (some _) => typed name kind none

theorem samePosition_redescribed (a : Argument) : a.redescribed.SamePosition a := by
  rcases a with _ | ⟨_, _, _ | _⟩ <;> rfl

theorem redescribed_eq_self_iff (a : Argument) : a.redescribed = a ↔ a.isLiteral := by
  rcases a with _ | ⟨_, _, _ | _⟩ <;> simp [redescribed, isLiteral]

end Argument

namespace Layout

/-! ### Reading layouts -/

mutual

/-- The layout that an object stands for. -/
def ofJson? : Json → Option Layout
  | .object members => do
    let argument ← (Json.object members).optional? "argument" Argument.ofJson?
    let hasGuard ← ((Json.object members).member? "has_guard").bind Json.boolean?
    let hasExecutor ← ((Json.object members).member? "has_executor").bind Json.boolean?
    return node argument hasGuard hasExecutor (← childrenOf? members)
  | _ => none

/-- The layouts in the member for the children, which is left out if there are none. -/
def childrenOf? : List (String × Json) → Option (List Layout)
  | [] => some []
  | (name, value) :: rest => if name = "children" then elementsOf? value else childrenOf? rest

/-- The layouts in an array. -/
def elementsOf? : Json → Option (List Layout)
  | .array elements => allOf? elements
  | _ => none

/-- Several layouts, if all of them can be read. -/
def allOf? : List Json → Option (List Layout)
  | [] => some []
  | element :: rest => do return (← ofJson? element) :: (← allOf? rest)

end

/-- The layouts below come from the member for the children. -/
theorem childrenOf?_eq (members : List (String × Json)) :
    childrenOf? members = (((Json.object members).member? "children").map elementsOf?).getD (some []) := by
  simp only [Json.member?]
  induction members with
  | nil => rfl
  | cons member members ih =>
    obtain ⟨name, value⟩ := member
    rw [childrenOf?, List.lookup_cons]
    split
    · rename_i here
      rw [here, beq_self_eq_true]
      rfl
    · rename_i elsewhere
      rw [beq_false_of_ne (Ne.symm elsewhere), ih]

/-- The order of the members of objects matters neither for a layout nor for several. -/
theorem reads_congr {json other : Json} (alike : json.Alike other) :
    ofJson? json = ofJson? other ∧ elementsOf? json = elementsOf? other := by
  induction json generalizing other with
  | boolean value =>
    cases alike
    exact ⟨rfl, rfl⟩
  | text value =>
    cases alike
    exact ⟨rfl, rfl⟩
  | array elements ih =>
    cases alike with
    | array each =>
      refine ⟨rfl, ?_⟩
      rw [elementsOf?, elementsOf?]
      induction each with
      | nil => rfl
      | cons first _ rest =>
        rw [allOf?, allOf?, (ih _ List.mem_cons_self first).1,
          rest fun element mem => ih element (List.mem_cons_of_mem _ mem)]
  | object members ih =>
    cases alike with
    | @object _ members' each =>
      refine ⟨?_, rfl⟩
      have whole : (Json.object members).Alike (.object members') := .object each
      have marks : ∀ name, ((Json.object members).member? name).bind Json.boolean? =
          ((Json.object members').member? name).bind Json.boolean? :=
        fun name => whole.bind_member?_eq name fun _ _ => Json.Alike.boolean?_eq
      have below : childrenOf? members = childrenOf? members' := by
        rw [childrenOf?_eq, childrenOf?_eq]
        have listed := whole.member? "children"
        generalize found : (Json.object members).member? "children" = value,
          (Json.object members').member? "children" = value' at listed ⊢
        cases listed with
        | none => rfl
        | some inside => exact (ih _ (Json.mem_of_lookup found) inside).2
      rw [ofJson?, ofJson?, whole.optional?_eq "argument" fun _ _ => Argument.ofJson?_congr, marks, marks, below]

theorem ofJson?_congr {json other : Json} (alike : json.Alike other) : ofJson? json = ofJson? other :=
  (reads_congr alike).1

/-- Layouts that are read back one by one are read back together. -/
theorem allOf?_toJsons {layouts : List Layout} (each : ∀ layout ∈ layouts, ofJson? layout.toJson = some layout) :
    allOf? (toJsons layouts) = some layouts := by
  induction layouts with
  | nil => rfl
  | cons layout layouts ih =>
    rw [toJsons, allOf?, each layout List.mem_cons_self,
      ih fun other mem => each other (List.mem_cons_of_mem _ mem)]
    rfl

/-- The members of the form: the argument is left out if there is none, and the children if there are none. -/
theorem member?_toJson (argument : Option Argument) (hasGuard hasExecutor : Bool) (children : List Layout) :
    let json := (node argument hasGuard hasExecutor children).toJson
    json.member? "argument" = argument.map Argument.toJson ∧
      json.member? "has_guard" = some (.boolean hasGuard) ∧
      json.member? "has_executor" = some (.boolean hasExecutor) ∧
      json.member? "children" = if children = [] then none else some (.array (toJsons children)) := by
  cases argument <;> cases children <;> simp [toJson, toJsons, Json.member?, List.lookup_cons]

/-- A layout is read back from its JSON form. -/
theorem ofJson?_toJson (layout : Layout) : ofJson? layout.toJson = some layout := by
  induction layout with
  | node argument hasGuard hasExecutor children ih =>
    obtain ⟨top, guarded, executable, listed⟩ := member?_toJson argument hasGuard hasExecutor children
    obtain ⟨members, form⟩ : ∃ members, (node argument hasGuard hasExecutor children).toJson = .object members :=
      ⟨_, by rw [toJson]⟩
    rw [form] at top guarded executable listed ⊢
    have readArgument : (Json.object members).optional? "argument" Argument.ofJson? = some argument := by
      rw [Json.optional?, top]
      cases argument with
      | none => rfl
      | some a => simp [Argument.ofJson?_toJson]
    have readChildren : childrenOf? members = some children := by
      rw [childrenOf?_eq, listed]
      cases children with
      | nil => rfl
      | cons child children => exact allOf?_toJsons ih
    rw [ofJson?, readArgument, guarded, executable, readChildren]
    rfl

/-! ### Other arguments -/

mutual

/-- The layout with other arguments. -/
def mapArguments (f : Argument → Argument) : Layout → Layout
  | node argument hasGuard hasExecutor children =>
    node (argument.map f) hasGuard hasExecutor (mapAllArguments f children)

/-- Several layouts with other arguments. -/
def mapAllArguments (f : Argument → Argument) : List Layout → List Layout
  | [] => []
  | layout :: rest => layout.mapArguments f :: mapAllArguments f rest

end

variable {f : Argument → Argument} {layout other : Layout}

theorem mapAllArguments_eq (f : Argument → Argument) (layouts : List Layout) :
    mapAllArguments f layouts = layouts.map (mapArguments f) := by
  induction layouts with
  | nil => rfl
  | cons layout layouts ih => rw [mapAllArguments, ih, List.map_cons]

/-- Other arguments of the same positions do not make another layout. -/
theorem same_mapArguments (alike : ∀ a, (f a).SamePosition a) (layout : Layout) :
    layout.same (layout.mapArguments f) := by
  induction layout with
  | node argument hasGuard hasExecutor children ih =>
    rw [mapArguments, mapAllArguments_eq, same_node_iff]
    refine ⟨?_, rfl, rfl, List.forall₂_map_right_iff.mpr (List.forall₂_same.mpr ih)⟩
    rw [Option.map_map]
    exact Option.map_congr fun a _ => (alike a).symm

/-- A layout stays as it is if and only if each of its arguments does. -/
theorem mapArguments_eq_self_iff :
    layout.mapArguments f = layout ↔ ∀ part ∈ layout.nodes, ∀ a, part.argument = some a → f a = a := by
  induction layout with
  | node argument hasGuard hasExecutor children ih =>
    rw [forall_mem_nodes_iff, mapArguments, mapAllArguments_eq, node.injEq]
    have below : children.map (mapArguments f) = children ↔
        ∀ child ∈ children, ∀ part ∈ child.nodes, ∀ a, part.argument = some a → f a = a := by
      nth_rewrite 2 [← List.map_id children]
      rw [List.map_inj_left]
      exact forall₂_congr ih
    rw [below]
    cases argument with
    | none => simp [Layout.argument]
    | some a => simp [Layout.argument]

/-- Lists are compared by two relations with the same outcome if these agree on the elements of the first one. -/
theorem forall₂_iff_of_mem {α β : Type} {R S : α → β → Prop} {items : List α} {others : List β}
    (agree : ∀ item ∈ items, ∀ other, R item other ↔ S item other) :
    List.Forall₂ R items others ↔ List.Forall₂ S items others := by
  constructor <;> intro related
  · exact ((List.forall₂_and_left _ _).mpr ⟨agree, related⟩).imp fun _ _ both => (both.1 _).mp both.2
  · exact ((List.forall₂_and_left _ _).mpr ⟨agree, related⟩).imp fun _ _ both => (both.1 _).mpr both.2

/-- Layouts are the same if and only if they are equal without descriptions. -/
theorem same_iff_undescribed :
    layout.same other ↔ layout.mapArguments undescribed = other.mapArguments undescribed := by
  induction layout generalizing other with
  | node argument hasGuard hasExecutor children ih =>
    obtain ⟨argument', hasGuard', hasExecutor', children'⟩ := other
    rw [same_node_iff, mapArguments, mapArguments, node.injEq, mapAllArguments_eq, mapAllArguments_eq]
    have top : argument.map position = argument'.map position ↔
        argument.map undescribed = argument'.map undescribed := by
      cases argument <;> cases argument' <;> simp [undescribed_eq_iff, SamePosition]
    have below : List.Forall₂ (fun child child' => child.same child' = true) children children' ↔
        children.map (mapArguments undescribed) = children'.map (mapArguments undescribed) := by
      rw [← List.forall₂_eq_eq_eq, List.forall₂_map_left_iff, List.forall₂_map_right_iff]
      exact forall₂_iff_of_mem fun child mem child' => ih child mem
    rw [top, below]

/-- A layout without placeholders is the same as no other. -/
theorem eq_of_same (literal : ∀ part ∈ layout.nodes, ∀ a, part.argument = some a → a.isLiteral)
    (same : layout.same other) : layout = other := by
  induction layout generalizing other with
  | node argument hasGuard hasExecutor children ih =>
    obtain ⟨argument', hasGuard', hasExecutor', children'⟩ := other
    obtain ⟨top, below⟩ := forall_mem_nodes_iff.mp literal
    obtain ⟨positions, rfl, rfl, each⟩ := same_node_iff.mp same
    have arguments : argument = argument' := by
      rcases argument with _ | a <;> rcases argument' with _ | b
      · rfl
      · simp at positions
      · simp at positions
      · rw [eq_of_samePosition (top a rfl) (Option.some_inj.mp positions)]
    have determined : ∀ child ∈ children, ∀ other, child.same other → child = other :=
      fun child mem other => ih child mem (below child mem)
    have layouts : List.Forall₂ Eq children children' :=
      ((List.forall₂_and_left _ _).mpr ⟨determined, each⟩).imp fun _ _ both => both.1 _ both.2
    rw [List.forall₂_eq_eq_eq] at layouts
    rw [arguments, layouts]

/-! ### What the form tells -/

theorem toJson_injective : Function.Injective toJson := fun layout other same => by
  rw [← Option.some_inj, ← ofJson?_toJson layout, same, ofJson?_toJson]

theorem toJson_alike_iff : other.toJson.Alike layout.toJson ↔ other = layout := by
  constructor
  · intro alike
    rw [← Option.some_inj, ← ofJson?_toJson other, ofJson?_congr alike, ofJson?_toJson]
  · rintro rfl
    exact Json.Alike.refl _

/-- The comparison that ignores descriptions misses a difference in the form just if there is a placeholder. -/
theorem exists_same_toJson_ne_iff :
    (∃ other, layout.same other ∧ other.toJson ≠ layout.toJson) ↔
      ∃ part ∈ layout.nodes, ∃ a, part.argument = some a ∧ ¬ a.isLiteral := by
  constructor
  · rintro ⟨other, same, differ⟩
    by_contra none
    push Not at none
    exact differ (congrArg toJson (eq_of_same none same).symm)
  · rintro ⟨part, inside, a, here, placeholder⟩
    refine ⟨layout.mapArguments redescribed, same_mapArguments samePosition_redescribed layout, ?_⟩
    intro equal
    have kept := mapArguments_eq_self_iff.mp (toJson_injective equal) part inside a here
    exact placeholder ((redescribed_eq_self_iff a).mp kept)

/-- The JSON form of a layout determines it. The layout is read back from the form, with every field of every
node, from the form with the members of objects in any other order too; so two layouts have the same form, the
same but for the order of members, or the same text, only if they are equal. Layouts that differ in nothing but
descriptions are the same in comparison. That comparison is coarser than equality of forms for just those layouts
that have a placeholder. -/
theorem toJson_determines (layout : Layout) :
    ofJson? layout.toJson = some layout ∧
    (∀ json : Json, json.Alike layout.toJson → ofJson? json = some layout) ∧
    (∀ other : Layout,
      (other.toJson = layout.toJson ↔ other = layout) ∧
      (other.toJson.Alike layout.toJson ↔ other = layout) ∧
      (other.toJson.pretty = layout.toJson.pretty ↔ other = layout) ∧
      (other.toJson = layout.toJson → layout.same other) ∧
      (layout.same other ↔
        (layout.mapArguments undescribed).toJson = (other.mapArguments undescribed).toJson)) ∧
    ((∃ other, layout.same other ∧ other.toJson ≠ layout.toJson) ↔
      ∃ part ∈ layout.nodes, ∃ a, part.argument = some a ∧ ¬ a.isLiteral) := by
  refine ⟨ofJson?_toJson layout, ?_, ?_, exists_same_toJson_ne_iff⟩
  · intro json alike
    rw [ofJson?_congr alike, ofJson?_toJson]
  · intro other
    refine ⟨toJson_injective.eq_iff, toJson_alike_iff, ?_, ?_, ?_⟩
    · rw [Json.pretty_injective.eq_iff, toJson_injective.eq_iff]
    · intro equal
      rw [same_iff_undescribed, toJson_injective equal]
    · rw [same_iff_undescribed, toJson_injective.eq_iff]

/-- The form of a layout with one placeholder, the flags exchanged, is read as the layout. -/
theorem ofJson?_flags_exchanged :
    ofJson? (.object [("argument", Argument.toJson (.typed "who" .player (some "a friend"))),
        ("has_executor", .boolean true), ("has_guard", .boolean false)]) =
      some (.node (some (.typed "who" .player (some "a friend"))) false true []) :=
  (toJson_determines (.node (some (.typed "who" .player (some "a friend"))) false true [])).2.1 _
    (.of_perm (.cons _ (.swap _ _ _)) (by decide))

end Layout

end Dispatch
