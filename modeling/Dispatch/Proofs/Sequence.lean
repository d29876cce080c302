import Mathlib.Data.List.Forall2

/-!
# Checking a list

Each element of a list is checked in turn. All of them pass, and the results stand in the order of the
elements, or the first element that does not pass decides the failure.

## Main results

* `bind_eq_ok_iff` — when two checks in a row pass
* `mapM_eq_ok_iff` — when a list passes
* `exists_forall₂_iff` — when there are related elements
* `exists_item_of_mapM`, `exists_result_of_mapM` — elements and results of a list that passes
* `mapM_eq_error_iff`, `failure?_mapM` — with which failure it does not
-/

set_option autoImplicit false

namespace Dispatch

/-- Two steps in a row succeed if the second one does with what the first one gives. -/
theorem bind_eq_ok_iff {α β ε : Type} {step : Except ε α} {next : α → Except ε β} {result : β} :
    step >>= next = .ok result ↔ ∃ item, step = .ok item ∧ next item = .ok result := by
  cases step <;> simp [bind, Except.bind]

/-- A list is accepted if and only if each of its elements is. -/
theorem mapM_eq_ok_iff {α β ε : Type} {f : α → Except ε β} {items : List α} {results : List β} :
    items.mapM f = .ok results ↔ List.Forall₂ (fun item result => f item = .ok result) items results := by
  induction items generalizing results with
  | nil => simp [pure, Except.pure, eq_comm]
  | cons item items ih =>
    rw [List.mapM_cons, List.forall₂_cons_left_iff]
    cases accepted : f item with
    | error error => simp [bind, Except.bind]
    | ok result =>
      simp only [← ih]
      cases items.mapM f with
      | error error => simp [bind, Except.bind]
      | ok others => simp [bind, Except.bind, pure, Except.pure, eq_comm]

/-- Every result is that of an element. -/
theorem exists_item_of_mapM {α β ε : Type} {f : α → Except ε β} {items : List α} {results : List β}
    {result : β} (accepted : items.mapM f = .ok results) (mem : result ∈ results) :
    ∃ item ∈ items, f item = .ok result := by
  obtain ⟨k, inside, rfl⟩ := List.mem_iff_getElem.mp mem
  have each := mapM_eq_ok_iff.mp accepted
  have inside' : k < items.length := each.length_eq ▸ inside
  exact ⟨_, List.getElem_mem inside', each.get inside' inside⟩

/-- A list has related elements if each of its elements has one. -/
theorem exists_forall₂_iff {α β : Type} {related : α → β → Prop} {items : List α} :
    (∃ others, List.Forall₂ related items others) ↔ ∀ item ∈ items, ∃ other, related item other := by
  induction items with
  | nil => exact iff_of_true ⟨[], .nil⟩ (by simp)
  | cons item items ih =>
    rw [List.forall_mem_cons, ← ih]
    constructor
    · intro ⟨others, each⟩
      cases each with
      | cons first rest => exact ⟨⟨_, first⟩, ⟨_, rest⟩⟩
    · rintro ⟨⟨other, first⟩, ⟨others, rest⟩⟩
      exact ⟨other :: others, .cons first rest⟩

/-- Related lists have the same image if related elements have. -/
theorem map_eq_map_of_forall₂ {α β ω : Type} {related : α → β → Prop} {items : List α}
    {others : List β} {f : α → ω} {g : β → ω} (all : List.Forall₂ related items others)
    (same : ∀ item other, related item other → f item = g other) : items.map f = others.map g := by
  rw [← List.forall₂_eq_eq_eq, List.forall₂_map_left_iff, List.forall₂_map_right_iff]
  exact all.imp same

/-- Every element has a result. -/
theorem exists_result_of_mapM {α β ε : Type} {f : α → Except ε β} {items : List α} {results : List β}
    {item : α} (accepted : items.mapM f = .ok results) (mem : item ∈ items) :
    ∃ result, f item = .ok result :=
  exists_forall₂_iff.mp ⟨results, mapM_eq_ok_iff.mp accepted⟩ item mem

/-- Going through a list fails with the failure of the first element that fails. -/
theorem mapM_eq_error_iff {α β δ : Type} {f : α → Except δ β} {items : List α} {failure : δ} :
    items.mapM f = .error failure ↔ ∃ before item after, items = before ++ item :: after ∧
      (∀ other ∈ before, ∃ value, f other = .ok value) ∧ f item = .error failure := by
  induction items with
  | nil => simp [pure, Except.pure]
  | cons item items ih =>
    cases passed : f item with
    | error other =>
      have stops : (item :: items).mapM f = .error failure ↔ f item = .error failure := by
        rw [List.mapM_cons, passed]
        simp [bind, Except.bind]
      rw [stops]
      constructor
      · intro failed
        exact ⟨[], item, items, rfl, by simp, failed⟩
      · rintro ⟨before, last, after, split, fine, failed⟩
        cases before with
        | nil =>
          obtain ⟨rfl, -⟩ := List.cons.inj split
          exact failed
        | cons first before =>
          obtain ⟨rfl, -⟩ := List.cons.inj split
          obtain ⟨value, done⟩ := fine item List.mem_cons_self
          simp [passed] at done
    | ok value =>
      have goesOn : (item :: items).mapM f = .error failure ↔ items.mapM f = .error failure := by
        rw [List.mapM_cons, passed]
        cases items.mapM f <;> simp [bind, Except.bind, pure, Except.pure]
      rw [goesOn, ih]
      constructor
      · rintro ⟨before, last, after, rfl, fine, failed⟩
        refine ⟨item :: before, last, after, rfl, ?_, failed⟩
        exact List.forall_mem_cons.mpr ⟨⟨value, passed⟩, fine⟩
      · rintro ⟨before, last, after, split, fine, failed⟩
        cases before with
        | nil =>
          obtain ⟨rfl, -⟩ := List.cons.inj split
          simp [passed] at failed
        | cons first before =>
          obtain ⟨-, rfl⟩ := List.cons.inj split
          exact ⟨before, last, after, rfl, (List.forall_mem_cons.mp fine).2, failed⟩

/-- The failure that something ends with, if it fails. -/
def failure? {α δ : Type} : Except δ α → Option δ
  | .ok _ => none
  | .error failure => some failure

@[simp]
theorem failure?_eq_some_iff {α δ : Type} {outcome : Except δ α} {failure : δ} :
    failure? outcome = some failure ↔ outcome = .error failure := by
  cases outcome <;> simp [failure?]

theorem failure?_eq_none_iff {α δ : Type} {outcome : Except δ α} :
    failure? outcome = none ↔ ∃ value, outcome = .ok value := by
  cases outcome <;> simp [failure?]

/-- Going through a list fails with the first failure that is found in it. -/
theorem failure?_mapM {α β δ : Type} (f : α → Except δ β) (items : List α) :
    failure? (items.mapM f) = items.findSome? fun item => failure? (f item) := by
  ext failure
  rw [failure?_eq_some_iff, mapM_eq_error_iff, List.findSome?_eq_some_iff]
  simp only [failure?_eq_some_iff, failure?_eq_none_iff]
  constructor
  · rintro ⟨before, item, after, split, fine, failed⟩
    exact ⟨before, item, after, split, failed, fine⟩
  · rintro ⟨before, item, after, split, failed, fine⟩
    exact ⟨before, item, after, split, fine, failed⟩

end Dispatch
