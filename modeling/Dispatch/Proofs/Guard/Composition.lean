import Dispatch.Proofs.Guard.Execution
import Dispatch.Rehearsal
import Mathlib.Data.List.ReduceOption

/-!
# Compositions of guards

Guards are joined two at a time, and what was joined can be joined again, so that a composition is a
binary tree. Its slots hold guards or are empty, and the same guard may stand in several of them.

Only the present guards matter, from left to right. Of none nothing is made, a lone one is kept as it is,
and several make a guard that asks them in turn until one denies or panics. How the tree was bracketed and
where its empty slots are cannot be observed, whatever the guards do to the world.

## Main definitions

* `Guard.Composition` — a tree of joins over guards that may be absent
* `Guard.Composition.value`, `Guard.Composition.present` — what is made of it, the guards in its slots
* `Guard.AsksInTurn` — consulting a guard is asking some guards in turn
* `Guard.Alike` — two guards that cannot be told apart by consulting them

## Main results

* `Guard.Composition.leaves?_value` — the leaves of a composition are those of its present guards
* `Guard.asksInTurn_of_leaves_eq`, `Guard.alike_of_leaves_eq` — consulting a guard shows its leaves only
* `Guard.Composition.value_asksInTurn` — a composition asks its present guards in turn
-/

set_option autoImplicit false

namespace Dispatch.Guard

variable {γ σ : Type} {guard other : Guard γ} {parts : List (Guard γ)}

/-! ### Asking in turn -/

/-- Consulting a guard is asking some guards in turn. -/
structure AsksInTurn (guard : Guard γ) (parts : List (Guard γ)) : Prop where
  /-- the parts are asked in order, until one denies or panics -/
  eval_eq : ∀ {σ : Type} (ask : γ → Invocation → Action σ Bool) (invocation : Invocation) (world : σ),
    guard.eval ask invocation world =
      (inquire (fun part => part.eval ask invocation) parts world).ending
  /-- the answer is yes if and only if all of them agree -/
  agrees_iff : ∀ {σ : Type} (ask : γ → Invocation → Action σ Bool) (invocation : Invocation) (world : σ),
    (∃ later, guard.eval ask invocation world = .ok true later) ↔
      AllAgree (fun part => part.eval ask invocation) parts world
  /-- if the answer is yes, then each of them was asked, and once for each of its places -/
  asked_eq : ∀ {σ : Type} (ask : γ → Invocation → Action σ Bool) (invocation : Invocation)
    {world later : σ}, guard.eval ask invocation world = .ok true later →
      (inquire (fun part => part.eval ask invocation) parts world).asked = parts
  /-- otherwise it is that of the last one who was asked; those before it agreed, and those behind it were
  not asked -/
  exists_last : ∀ {σ : Type} (ask : γ → Invocation → Action σ Bool) (invocation : Invocation) (world : σ),
    (∀ later, guard.eval ask invocation world ≠ .ok true later) →
      ∃ front last back between, parts = front ++ last :: back ∧
        (inquire (fun part => part.eval ask invocation) parts world).asked = front ++ [last] ∧
        (inquire (fun part => part.eval ask invocation) front world).ending = .ok true between ∧
        last.eval ask invocation between = guard.eval ask invocation world
  /-- handlers that keep a record see the leaves of the parts, in order and as far as they are asked, and
  nobody else -/
  record : ∀ {ε σ : Type} (handlers : Handlers γ ε σ) (invocation : Invocation) (world : σ)
    (record : List (Contact γ ε)),
    guard.eval handlers.recorded.ask invocation (world, record) =
      withRecord
        (record ++ (inquire (fun leaf => handlers.ask leaf invocation) (parts.flatMap leaves)
          world).asked.map .asked)
        (guard.eval handlers.ask invocation world)

/-- A guard asks any guards in turn that have the same leaves. -/
theorem asksInTurn_of_leaves_eq (same : guard.leaves = parts.flatMap leaves) :
    guard.AsksInTurn parts := by
  have turns {σ : Type} (ask : γ → Invocation → Action σ Bool) (invocation : Invocation) (world : σ) :
      guard.eval ask invocation world =
        (inquire (fun part => part.eval ask invocation) parts world).ending := by
    rw [eval_eq_inquire, same]
    exact (ending_flatMap (fun part => part.eval_eq_inquire ask invocation) parts world).symm
  refine ⟨turns, ?_, ?_, ?_, ?_⟩
  · intro σ ask invocation world
    rw [turns, inquire_agrees_iff]
  · intro σ ask invocation world later agreed
    rw [turns] at agreed
    exact asked_eq_of_agrees agreed
  · intro σ ask invocation world stopped
    simp only [turns ask invocation world] at stopped ⊢
    exact exists_last_asked stopped
  · intro ε σ handlers invocation world record
    rw [eval_eq_inquire, eval_eq_inquire, inquire_recorded, same]

/-- Two guards ask the same leaves in the same order, so that they cannot be told apart by consulting
them. -/
structure Alike (guard other : Guard γ) : Prop where
  leaves_eq : guard.leaves = other.leaves
  /-- they have the same answer and the same effects; that they make the same calls is the case of handlers
  that keep a record -/
  eval_eq : ∀ {σ : Type} (ask : γ → Invocation → Action σ Bool) (invocation : Invocation) (world : σ),
    guard.eval ask invocation world = other.eval ask invocation world

theorem alike_of_leaves_eq (same : guard.leaves = other.leaves) : guard.Alike other := by
  refine ⟨same, fun ask invocation world => ?_⟩
  rw [eval_eq_inquire, eval_eq_inquire, same]

/-- Of two guards with the same leaves, either both are absent or they are alike. -/
theorem alike_of_leaves?_eq {guard other : Option (Guard γ)} (same : leaves? guard = leaves? other) :
    Option.Rel Alike guard other := by
  cases guard with
  | none =>
    rw [leaves?_none, eq_comm, leaves?_eq_nil_iff] at same
    rw [same]
    exact .none
  | some guard =>
    cases other with
    | none => exact absurd same (by simp [leaves_ne_nil])
    | some other => exact .some (alike_of_leaves_eq same)

/-! ### Trees of joins -/

/-- A tree of joins over guards that may be absent. -/
inductive Composition (γ : Type) where
  | slot (guard : Option (Guard γ))
  | join (left right : Composition γ)

namespace Composition

variable {composition : Composition γ}

/-- What is made of a composition. -/
def value : Composition γ → Option (Guard γ)
  | slot guard => guard
  | join left right => Guard.join left.value right.value

/-- The slots of a composition, from left to right. -/
def slots : Composition γ → List (Option (Guard γ))
  | slot guard => [guard]
  | join left right => left.slots ++ right.slots

/-- The guards in the slots of a composition, from left to right. -/
def present (composition : Composition γ) : List (Guard γ) := composition.slots.reduceOption

@[simp] theorem present_slot (guard : Option (Guard γ)) : (slot guard).present = guard.toList := by
  cases guard <;> rfl

@[simp] theorem present_join (left right : Composition γ) :
    (join left right).present = left.present ++ right.present := List.reduceOption_append _ _

/-- The leaves of a composition are those of its present guards. -/
theorem leaves?_value (composition : Composition γ) :
    leaves? composition.value = composition.present.flatMap leaves := by
  induction composition with
  | slot guard => cases guard <;> simp [value]
  | join left right ihLeft ihRight => simp [value, ihLeft, ihRight]

/-- Nothing is made of a composition exactly if no guard is present. -/
theorem value_eq_none_iff : composition.value = none ↔ composition.present = [] := by
  induction composition with
  | slot guard => simp [value]
  | join left right ihLeft ihRight => simp [value, join_eq_none_iff, ihLeft, ihRight]

theorem present_eq_nil_iff : composition.present = [] ↔ ∀ slot ∈ composition.slots, slot = none := by
  induction composition with
  | slot guard => simp [slots]
  | join left right ihLeft ihRight => simp [slots, ihLeft, ihRight, or_imp, forall_and]

/-- A lone guard is kept as it is. -/
theorem value_of_present_eq_singleton (alone : composition.present = [guard]) :
    composition.value = some guard := by
  induction composition with
  | slot guard => simpa [value] using alone
  | join left right ihLeft ihRight =>
    -- The guard is on one of the two sides, and the other one is absent.
    rw [present_join, List.append_eq_singleton_iff] at alone
    rcases alone with ⟨absent, alone⟩ | ⟨alone, absent⟩
    · rw [value, value_eq_none_iff.mpr absent, ihRight alone, join_none_left]
    · rw [value, value_eq_none_iff.mpr absent, ihLeft alone, join_none_right]

/-- Several guards make a new one. -/
theorem exists_value_eq_both (several : 2 ≤ composition.present.length) :
    ∃ first second, composition.value = some (both first second) := by
  induction composition with
  | slot guard => cases guard <;> simp at several
  | join left right ihLeft ihRight =>
    cases first : left.value with
    | none =>
      rw [present_join, value_eq_none_iff.mp first, List.nil_append] at several
      rw [value, first, join_none_left]
      exact ihRight several
    | some guard =>
      cases second : right.value with
      | none =>
        rw [present_join, value_eq_none_iff.mp second, List.append_nil] at several
        rw [value, second, join_none_right]
        exact ihLeft several
      | some other => exact ⟨guard, other, by rw [value, first, second, join_some_some]⟩

/-- Nothing is made of a composition whose slots are all empty, and a lone guard is kept as it is. Several
guards make a new one, and in any case the guards are asked in turn from left to right, in the world that
each one leaves to the next, until one denies or panics; a terminal with what was made permits accordingly.
So compositions of the same guards cannot be told apart: joining is associative, and an absent guard makes no
difference on either side. -/
theorem value_asksInTurn (composition : Composition γ) :
    (composition.value = none ↔ ∀ slot ∈ composition.slots, slot = none) ∧
      (∀ guard, composition.present = [guard] → composition.value = some guard) ∧
      (2 ≤ composition.present.length → ∃ first second, composition.value = some (both first second)) ∧
      (∀ guard, composition.value = some guard → guard.AsksInTurn composition.present) ∧
      (∀ {ε σ : Type} (handlers : Handlers γ ε σ) (terminal : Terminal γ ε) (invocation : Invocation)
        (world : σ), terminal.guard = composition.value →
          terminal.permits handlers invocation world =
            (inquire (fun guard => guard.eval handlers.ask invocation) composition.present world).ending) ∧
      (∀ other : Composition γ, other.present = composition.present →
        Option.Rel Alike composition.value other.value) ∧
      (∀ first second third : Option (Guard γ),
        Option.Rel Alike (Guard.join (Guard.join first second) third)
          (Guard.join first (Guard.join second third))) ∧
      ∀ guard : Option (Guard γ), Guard.join none guard = guard ∧ Guard.join guard none = guard := by
  refine ⟨value_eq_none_iff.trans present_eq_nil_iff, fun _ => value_of_present_eq_singleton,
    exists_value_eq_both, ?_, ?_, ?_, ?_, ?_⟩
  · intro guard made
    have leaves := composition.leaves?_value
    rw [made, leaves?_some] at leaves
    exact asksInTurn_of_leaves_eq leaves
  · intro ε σ handlers terminal invocation world made
    rw [Terminal.permits_eq_inquire, made, leaves?_value]
    exact (ending_flatMap (fun part => part.eval_eq_inquire handlers.ask invocation) _ world).symm
  · intro other same
    refine alike_of_leaves?_eq ?_
    rw [leaves?_value, leaves?_value, same]
  · intro first second third
    refine alike_of_leaves?_eq ?_
    simp only [leaves?_join, List.append_assoc]
  · intro guard
    exact ⟨join_none_left guard, join_none_right guard⟩

/-- A ticket that is good for one time stands in two slots, with an empty one between them and a guard that
panics behind them. The ticket is asked twice, its second answer is no, and the last guard is not asked. -/
theorem ticket_asked_twice :
    let ticket : Guard ScriptedGuard := .single (.ofScript 0 "ticket" (.sequence [true, false]))
    let trap : Guard ScriptedGuard := .single (.ofScript 1 "trap" (.panic "trapped"))
    let composition : Composition ScriptedGuard :=
      join (join (slot (some ticket)) (slot none)) (join (slot (some ticket)) (slot (some trap)))
    ∃ guard, composition.value = some guard ∧ guard.AsksInTurn [ticket, ticket, trap] ∧
      (∃ first second, guard = both first second) ∧
      ∃ stage, guard.eval Rehearsal.handlers.ask ⟨.console, "enter", []⟩ .empty = .ok false stage ∧
        stage.calls = #[.guard "ticket", .guard "ticket"] := by
  intro ticket trap composition
  obtain ⟨-, -, several, asks, -⟩ := value_asksInTurn composition
  obtain ⟨first, second, made⟩ := several (by decide)
  refine ⟨_, rfl, asks _ rfl, ⟨first, second, Option.some_inj.mp made⟩, _, rfl, rfl⟩

end Composition

end Dispatch.Guard
