import Dispatch.Invocation

/-!
# Guards

A guard decides whether a command may run. Guards and executors are opaque: a guard is named by a
value of a type `γ`, an executor by a value of a type `ε`, and `Handlers` says what consulting or
running them does to a world of type `σ`. They may change the world, and they may panic. Joining
guards only pairs them up; nothing is consulted until an invocation is judged.

## Main definitions

* `Action` — a computation on a world that may panic
* `Handlers` — what guards and executors do
* `Guard` — a guard, or two guards that must both agree
* `Guard.join` — joins two guards of which either may be absent
* `Guard.eval` — consults a guard
* `Guard.leaves` — the guards it is made of, in the order in which they are consulted

## Main results

* `leaves?_join` — joining concatenates the leaves
* `join_eq_none_iff` — the result is absent only if both parts are
-/

set_option autoImplicit false

namespace Dispatch

/-- The abnormal end of a guard or an executor. -/
structure Panic where
  message : String
deriving DecidableEq, Repr

/-- A computation on a world of type `σ` that may panic, what it did to the world until then being
kept. -/
abbrev Action (σ : Type) := EStateM Panic σ

/-- What guards and executors do in a world of type `σ`. -/
structure Handlers (γ ε σ : Type) where
  /-- asks a guard -/
  ask : γ → Invocation → Action σ Bool
  /-- runs an executor -/
  run : ε → Invocation → Action σ Unit

/-- A guard, or two guards that must both agree. -/
inductive Guard (γ : Type) where
  | single (guard : γ)
  | both (first second : Guard γ)
deriving DecidableEq, Repr

namespace Guard

variable {γ σ : Type}

/-- Joins two guards. A guard that stands alone is kept as it is. -/
def join : Option (Guard γ) → Option (Guard γ) → Option (Guard γ)
  | none, none => none
  | some guard, none => some guard
  | none, some guard => some guard
  | some first, some second => some (both first second)

/-- Consults a guard; of two guards the second is asked only if the first agrees. -/
def eval (ask : γ → Invocation → Action σ Bool) : Guard γ → Invocation → Action σ Bool
  | single guard, invocation => ask guard invocation
  | both first second, invocation => do
    if ← first.eval ask invocation then second.eval ask invocation else return false

/-- The guards that a guard is made of, in the order in which they are consulted. -/
def leaves : Guard γ → List γ
  | single guard => [guard]
  | both first second => first.leaves ++ second.leaves

/-- The leaves of a guard that may be absent. -/
def leaves? (guard : Option (Guard γ)) : List γ := (guard.map leaves).getD []

@[simp] theorem join_none_left (guard : Option (Guard γ)) : join none guard = guard := by
  cases guard <;> rfl

@[simp] theorem join_none_right (guard : Option (Guard γ)) : join guard none = guard := by
  cases guard <;> rfl

@[simp] theorem join_some_some (first second : Guard γ) :
    join (some first) (some second) = some (both first second) := rfl

theorem join_eq_none_iff {first second : Option (Guard γ)} :
    join first second = none ↔ first = none ∧ second = none := by
  cases first <;> cases second <;> simp [join]

@[simp] theorem leaves?_none : leaves? (none : Option (Guard γ)) = [] := rfl

@[simp] theorem leaves?_some (guard : Guard γ) : leaves? (some guard) = guard.leaves := rfl

@[simp] theorem leaves?_join (first second : Option (Guard γ)) :
    leaves? (join first second) = leaves? first ++ leaves? second := by
  cases first <;> cases second <;> simp [leaves]

theorem leaves_ne_nil (guard : Guard γ) : guard.leaves ≠ [] := by
  induction guard with
  | single guard => simp [leaves]
  | both first second ih _ => simp [leaves, ih]

theorem leaves?_eq_nil_iff {guard : Option (Guard γ)} : leaves? guard = [] ↔ guard = none := by
  cases guard <;> simp [leaves_ne_nil]

end Guard

end Dispatch
