import Dispatch.Argument.Basic
import Mathlib.Data.Finset.Card
import Mathlib.Data.List.Forall2
import Mathlib.Data.List.Infix

/-!
# Paths of arguments

Two paths are the same if their arguments denote the same positions one by one. What a compilation
keeps of the paths that it walks is the list of their nonempty beginnings, each of them entered when
it comes up for the first time.

## Main definitions

* `Argument.SamePath` — the arguments of two paths denote the same positions
* `Argument.Continues` — a path is longer than another one by one argument
* `Argument.beginnings` — the nonempty beginnings of a path, the shortest first
* `Argument.Known` — a list of paths holds a path, descriptions aside
* `Argument.enter`, `Argument.enterAll` — adds paths that are not known yet
* `Argument.distinctBeginnings` — the nonempty beginnings of some paths, descriptions aside

## Main results

* `Argument.known_enterAll` — entering paths makes them known and forgets none
* `Argument.exists_first_of_mem_enterAll` — an entered beginning is that of the first path through its
  end
* `Argument.enterAll_beginnings_map_cons` — paths below a common first argument are entered as what
  follows it
* `Argument.length_enterAll_beginnings` — how many beginnings are entered
-/

set_option autoImplicit false

namespace Dispatch.Argument

/-- The arguments of two paths denote the same positions one by one. -/
def SamePath (p q : List Argument) : Prop := List.Forall₂ SamePosition p q

variable {p q r path : List Argument} {a b : Argument} {paths more : List (List Argument)}

theorem samePosition_comm : a.SamePosition b ↔ b.SamePosition a := eq_comm

theorem samePath_iff : SamePath p q ↔ p.map position = q.map position := by
  rw [← List.forall₂_eq_eq_eq, List.forall₂_map_left_iff, List.forall₂_map_right_iff]
  exact Iff.rfl

instance (p q : List Argument) : Decidable (SamePath p q) :=
  decidable_of_iff _ samePath_iff.symm

theorem SamePath.refl (p : List Argument) : SamePath p p := samePath_iff.mpr rfl

theorem SamePath.symm (h : SamePath p q) : SamePath q p :=
  samePath_iff.mpr (samePath_iff.mp h).symm

theorem SamePath.trans (h : SamePath p q) (h' : SamePath q r) : SamePath p r :=
  samePath_iff.mpr ((samePath_iff.mp h).trans (samePath_iff.mp h'))

theorem SamePath.length_eq (h : SamePath p q) : p.length = q.length := List.Forall₂.length_eq h

@[simp] theorem samePath_nil_left : SamePath [] p ↔ p = [] := List.forall₂_nil_left_iff

@[simp] theorem samePath_nil_right : SamePath p [] ↔ p = [] := List.forall₂_nil_right_iff

@[simp] theorem samePath_concat_iff :
    SamePath (p ++ [a]) (q ++ [b]) ↔ SamePath p q ∧ a.SamePosition b := by
  simp only [samePath_iff, List.map_append, List.map_cons, List.map_nil, SamePosition]
  constructor
  · intro same
    simpa using List.append_inj' same rfl
  · rintro ⟨same, last⟩
    rw [same, last]

@[simp] theorem samePath_append_left_iff : SamePath (r ++ p) (r ++ q) ↔ SamePath p q := by
  simp [samePath_iff]

@[simp] theorem samePath_cons_iff :
    SamePath (a :: p) (b :: q) ↔ a.SamePosition b ∧ SamePath p q := List.forall₂_cons

/-- A keyword has no description, so it alone denotes its position. -/
theorem literal_samePosition_iff {text : String} :
    (literal text).SamePosition a ↔ a = literal text := by
  cases a <;> simp [SamePosition, position, eq_comm]

/-- A path that denotes a keyword first starts with this keyword. -/
theorem exists_eq_literal_cons {text : String} (same : SamePath (literal text :: p) q) :
    ∃ rest, q = literal text :: rest ∧ SamePath p rest := by
  cases q with
  | nil => simp at same
  | cons a rest =>
    obtain ⟨first, others⟩ := samePath_cons_iff.mp same
    exact ⟨rest, by rw [literal_samePosition_iff.mp first], others⟩

/-- A path is longer than another one by one argument. -/
def Continues (base path : List Argument) : Prop := path ≠ [] ∧ SamePath path.dropLast base

instance (base path : List Argument) : Decidable (Continues base path) :=
  inferInstanceAs (Decidable (_ ∧ _))

theorem continues_iff : Continues p q ↔ ∃ start a, q = start ++ [a] ∧ SamePath start p := by
  constructor
  · rintro ⟨proper, same⟩
    exact ⟨q.dropLast, q.getLast proper, (List.dropLast_append_getLast proper).symm, same⟩
  · rintro ⟨start, a, rfl, same⟩
    exact ⟨by simp, by rwa [List.dropLast_concat]⟩

theorem Continues.congr (h : SamePath p q) : Continues r p ↔ Continues r q := by
  have starts : SamePath p.dropLast q.dropLast := by
    rw [samePath_iff, List.map_dropLast, List.map_dropLast, samePath_iff.mp h]
  have proper : p ≠ [] ↔ q ≠ [] := by
    rw [← List.length_pos_iff, ← List.length_pos_iff, h.length_eq]
  exact and_congr proper ⟨starts.symm.trans, starts.trans⟩

/-! ### Beginnings -/

/-- The nonempty beginnings of a path, the shortest first. -/
def beginnings (path : List Argument) : List (List Argument) := path.inits.tail

@[simp] theorem beginnings_nil : beginnings [] = [] := rfl

theorem beginnings_cons (a : Argument) (path : List Argument) :
    beginnings (a :: path) = [a] :: (beginnings path).map (a :: ·) := by
  cases path <;> simp [beginnings]

theorem mem_beginnings : p ∈ beginnings path ↔ p ≠ [] ∧ p <+: path := by
  induction path generalizing p with
  | nil => simp
  | cons a path ih =>
    rw [beginnings_cons]
    cases p with
    | nil => simp
    | cons b p =>
      by_cases empty : p = []
      · simp [empty, List.cons_prefix_cons, eq_comm]
      · simp [empty, List.cons_prefix_cons, ih, eq_comm, and_comm]

/-! ### Entering paths -/

/-- A list of paths holds a path, descriptions aside. -/
def Known (paths : List (List Argument)) (path : List Argument) : Prop :=
  ∃ p ∈ paths, SamePath path p

instance (paths : List (List Argument)) (path : List Argument) : Decidable (Known paths path) :=
  inferInstanceAs (Decidable (∃ p ∈ paths, SamePath path p))

theorem known_iff : Known paths path ↔ path.map position ∈ paths.map (·.map position) := by
  simp [Known, samePath_iff, eq_comm]

theorem Known.congr (h : SamePath p q) : Known paths p ↔ Known paths q :=
  ⟨fun ⟨r, mem, same⟩ => ⟨r, mem, h.symm.trans same⟩, fun ⟨r, mem, same⟩ => ⟨r, mem, h.trans same⟩⟩

/-- Adds a path behind the others if it is not known. -/
def enter (paths : List (List Argument)) (path : List Argument) : List (List Argument) :=
  if Known paths path then paths else paths ++ [path]

/-- Adds the paths that are not known, one after the other. -/
def enterAll (paths more : List (List Argument)) : List (List Argument) := more.foldl enter paths

@[simp] theorem enterAll_nil : enterAll paths [] = paths := rfl

@[simp] theorem enterAll_cons :
    enterAll paths (path :: more) = enterAll (enter paths path) more := rfl

@[simp] theorem enterAll_append {others : List (List Argument)} :
    enterAll paths (more ++ others) = enterAll (enterAll paths more) others := by
  simp [enterAll]

theorem mem_positions_enter {positions : List Position} :
    positions ∈ (enter paths path).map (·.map position) ↔
      positions ∈ paths.map (·.map position) ∨ positions = path.map position := by
  unfold enter
  split
  · rename_i known
    refine ⟨Or.inl, ?_⟩
    rintro (mem | rfl)
    · exact mem
    · exact known_iff.mp known
  · simp

theorem mem_positions_enterAll {positions : List Position} :
    positions ∈ (enterAll paths more).map (·.map position) ↔
      positions ∈ paths.map (·.map position) ∨ positions ∈ more.map (·.map position) := by
  induction more generalizing paths with
  | nil => simp
  | cons path more ih =>
    rw [enterAll_cons, ih, mem_positions_enter, or_assoc, List.map_cons, List.mem_cons]

theorem known_enterAll : Known (enterAll paths more) q ↔ Known paths q ∨ Known more q := by
  simp only [known_iff, mem_positions_enterAll]

theorem length_le_enter : paths.length ≤ (enter paths path).length := by
  unfold enter
  split <;> simp

theorem length_le_enterAll : paths.length ≤ (enterAll paths more).length := by
  induction more generalizing paths with
  | nil => exact le_rfl
  | cons path more ih => exact length_le_enter.trans ih

/-- No two paths of a list are the same. -/
def Distinct (paths : List (List Argument)) : Prop := paths.Pairwise fun p q => ¬ SamePath p q

theorem Distinct.enter (h : Distinct paths) : Distinct (enter paths path) := by
  unfold Argument.enter
  split
  · exact h
  · rename_i unknown
    refine List.pairwise_append.mpr ⟨h, List.pairwise_singleton _ _, ?_⟩
    intro p mem q last same
    rw [List.mem_singleton.mp last] at same
    exact unknown ⟨p, mem, same.symm⟩

theorem Distinct.enterAll (h : Distinct paths) : Distinct (enterAll paths more) := by
  induction more generalizing paths with
  | nil => exact h
  | cons path more ih => exact ih h.enter

/-- What was entered was there before, or it is one of the further paths and was not known. -/
theorem mem_enterAll (mem : p ∈ enterAll paths more) : p ∈ paths ∨ p ∈ more ∧ ¬ Known paths p := by
  induction more generalizing paths with
  | nil => exact Or.inl mem
  | cons path more ih =>
    rcases ih mem with held | ⟨later, unknown⟩
    · by_cases known : Known paths path
      · rw [enter, if_pos known] at held
        exact Or.inl held
      · rw [enter, if_neg known, List.mem_append, List.mem_singleton] at held
        rcases held with held | rfl
        · exact Or.inl held
        · exact Or.inr ⟨List.mem_cons_self, known⟩
    · -- Entering a path forgets none, so what is unknown after it was unknown before.
      refine Or.inr ⟨List.mem_cons_of_mem _ later, fun known => unknown ?_⟩
      have kept : Known (enterAll paths [path]) p := known_enterAll.mpr (Or.inl known)
      exact kept

/-- The empty path stays in front of all others. -/
theorem enterAll_nil_cons (proper : ∀ p ∈ more, p ≠ []) :
    enterAll ([] :: paths) more = [] :: enterAll paths more := by
  induction more generalizing paths with
  | nil => rfl
  | cons path more ih =>
    obtain ⟨first, others⟩ := List.forall_mem_cons.mp proper
    have known : Known ([] :: paths) path ↔ Known paths path := by
      simp [Known, first]
    have entered : enter ([] :: paths) path = [] :: enter paths path := by
      unfold enter
      simp only [known]
      split <;> rfl
    rw [enterAll_cons, entered, ih others, enterAll_cons]

/-- An entered beginning is that of the first path which passes through its end. -/
theorem exists_first_of_mem_enterAll (mem : p ∈ enterAll [] (paths.flatMap beginnings)) :
    ∃ earlier visit later, paths = earlier ++ visit :: later ∧ p <+: visit ∧
      ∀ other ∈ earlier, ∀ start, start <+: other → ¬ SamePath start p := by
  induction paths using List.reverseRecOn with
  | nil => simp at mem
  | append_singleton paths path ih =>
    rw [List.flatMap_append, List.flatMap_singleton, enterAll_append] at mem
    rcases mem_enterAll mem with before | ⟨now, unknown⟩
    · obtain ⟨earlier, visit, later, rfl, passes, first⟩ := ih before
      exact ⟨earlier, visit, later ++ [path], by simp, passes, first⟩
    · obtain ⟨proper, passes⟩ := mem_beginnings.mp now
      refine ⟨paths, path, [], rfl, passes, ?_⟩
      intro other isOther start begins same
      -- An earlier path through the end of this one would have entered it.
      have nonempty : start ≠ [] := by
        rintro rfl
        exact proper (samePath_nil_left.mp same)
      refine unknown (known_enterAll.mpr (Or.inr ⟨start, ?_, same.symm⟩))
      exact List.mem_flatMap.mpr ⟨other, isOther, mem_beginnings.mpr ⟨nonempty, begins⟩⟩

/-! ### Entering paths below a common beginning -/

theorem known_append {others : List (List Argument)} :
    Known (paths ++ others) q ↔ Known paths q ∨ Known others q := by
  simp [Known, or_and_right, exists_or]

theorem known_map_cons : Known (paths.map (a :: ·)) (a :: q) ↔ Known paths q := by
  simp [Known, SamePosition.refl]

/-- What is entered stands behind what was there before. -/
theorem prefix_enterAll : paths <+: enterAll paths more := by
  induction more generalizing paths with
  | nil => exact List.prefix_rfl
  | cons path more ih =>
    have first : paths <+: enter paths path := by
      unfold enter
      split
      · exact List.prefix_rfl
      · exact List.prefix_append _ _
    exact first.trans ih

/-- Paths of a common first argument are entered behind paths that start otherwise as what follows the
argument is entered by itself. -/
theorem enterAll_append_map_cons {others : List (List Argument)}
    (unknown : ∀ q, ¬ Known paths (a :: q)) :
    enterAll (paths ++ more.map (a :: ·)) (others.map (a :: ·)) =
      paths ++ (enterAll more others).map (a :: ·) := by
  induction others generalizing more with
  | nil => rfl
  | cons q others ih =>
    have first : enter (paths ++ more.map (a :: ·)) (a :: q) =
        paths ++ (enter more q).map (a :: ·) := by
      have known : Known (paths ++ more.map (a :: ·)) (a :: q) ↔ Known more q := by
        simp [known_append, known_map_cons, unknown]
      by_cases held : Known more q
      · rw [enter, enter, if_pos held, if_pos (known.mpr held)]
      · rw [enter, enter, if_neg held, if_neg fun h => held (known.mp h)]
        simp
    rw [List.map_cons, enterAll_cons, enterAll_cons, first, ih]

/-- Where the empty path is known, entering it over and over changes nothing. -/
theorem enterAll_inits (root : Known paths []) :
    enterAll paths (more.flatMap fun p => [] :: beginnings p) =
      enterAll paths (more.flatMap beginnings) := by
  induction more generalizing paths with
  | nil => rfl
  | cons p more ih =>
    have kept : Known (enterAll paths (beginnings p)) [] := known_enterAll.mpr (Or.inl root)
    rw [List.flatMap_cons, List.flatMap_cons, enterAll_append, enterAll_append, enterAll_cons, enter,
      if_pos root, ih kept]

/-- Entering the beginnings of an argument and of paths that it starts, behind paths that start
otherwise, is entering the beginnings of what follows the argument. -/
theorem enterAll_beginnings_map_cons (unknown : ∀ q, ¬ Known paths (a :: q)) :
    enterAll paths ((([] :: more).map (a :: ·)).flatMap beginnings) =
      paths ++ (enterAll [[]] (more.flatMap beginnings)).map (a :: ·) := by
  have below : (([] :: more).map (a :: ·)).flatMap beginnings =
      (([] :: more).flatMap fun p => [] :: beginnings p).map (a :: ·) := by
    rw [List.flatMap_map, List.map_flatMap]
    refine List.flatMap_congr fun p _ => ?_
    rw [beginnings_cons, List.map_cons]
  -- The argument itself comes first, so the empty path is known to all that follows it.
  have alone : enterAll [] (([] :: more).flatMap fun p => [] :: beginnings p) =
      enterAll [[]] (more.flatMap beginnings) := by
    have root : Known [[]] [] := ⟨[], List.mem_singleton_self [], SamePath.refl []⟩
    have fresh : enter [] [] = [[]] := if_neg (by simp [Known])
    rw [List.flatMap_cons, beginnings_nil, enterAll_append, enterAll_cons, fresh, enterAll_nil,
      enterAll_inits root]
  have behind : enterAll (paths ++ [].map (a :: ·))
      ((([] :: more).flatMap fun p => [] :: beginnings p).map (a :: ·)) =
        paths ++ (enterAll [] (([] :: more).flatMap fun p => [] :: beginnings p)).map (a :: ·) :=
    enterAll_append_map_cons unknown
  rw [List.map_nil, List.append_nil] at behind
  rw [below, behind, alone]

/-! ### Counting -/

/-- The nonempty beginnings of some paths, descriptions aside. -/
def distinctBeginnings (paths : List (List Argument)) : Finset (List Position) :=
  ((paths.flatMap beginnings).map (·.map position)).toFinset

theorem nil_notMem_distinctBeginnings : [] ∉ distinctBeginnings paths := by
  simp only [distinctBeginnings, List.mem_toFinset, List.mem_map, List.mem_flatMap,
    List.map_eq_nil_iff, not_exists, not_and]
  rintro p ⟨path, -, mem⟩
  exact (mem_beginnings.mp mem).1

theorem Distinct.nodup_positions (h : Distinct paths) : (paths.map (·.map position)).Nodup :=
  List.pairwise_map.mpr (h.imp fun differ same => differ (samePath_iff.mpr same))

/-- Besides the empty path, as many paths are entered as there are distinct beginnings. -/
theorem length_enterAll_beginnings (paths : List (List Argument)) :
    (enterAll [[]] (paths.flatMap beginnings)).length = 1 + (distinctBeginnings paths).card := by
  -- Distinct paths have distinct positions, so that counting the paths is counting their positions.
  have distinct : Distinct (enterAll [[]] (paths.flatMap beginnings)) :=
    Distinct.enterAll (List.pairwise_singleton _ _)
  have same : ((enterAll [[]] (paths.flatMap beginnings)).map (·.map position)).toFinset =
      insert [] (distinctBeginnings paths) := by
    ext positions
    rw [List.mem_toFinset, mem_positions_enterAll, Finset.mem_insert, distinctBeginnings,
      List.mem_toFinset]
    simp
  rw [← List.length_map (·.map position), ← List.toFinset_card_of_nodup distinct.nodup_positions,
    same, Finset.card_insert_of_notMem nil_notMem_distinctBeginnings, Nat.add_comm]

end Dispatch.Argument
