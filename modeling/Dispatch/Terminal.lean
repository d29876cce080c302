import Dispatch.Guard

/-!
# Terminals

A node of the dispatch trie at which a command line may end carries a terminal: a guard, an executor
or both.

## Main definitions

* `Terminal` — a guard and an executor, at least one of them present
* `Terminal.of?` — a terminal from its parts, if there are any
* `Terminal.permits` — consults the guard
* `Terminal.execute` — consults the guard once and then runs the executor

## Main results

* `Terminal.of?_eq_none_iff` — only the absence of both parts makes no terminal
-/

set_option autoImplicit false

namespace Dispatch

/-- What a node offers to a command line that ends at it. -/
structure Terminal (γ ε : Type) where
  guard : Option (Guard γ)
  executor : Option ε
  present : (guard.isSome || executor.isSome) = true
deriving DecidableEq

/-- How an execution ended. -/
inductive Outcome where
  | executed
  | denied
  /-- permitted, but the terminal is only a guard -/
  | noExecutor
deriving DecidableEq, Repr

namespace Terminal

variable {γ ε σ : Type}

/-- A terminal from its parts, if there are any. -/
def of? (guard : Option (Guard γ)) (executor : Option ε) : Option (Terminal γ ε) :=
  if h : (guard.isSome || executor.isSome) = true then some ⟨guard, executor, h⟩ else none

/-- Consults the guard; a terminal without one permits. -/
def permits (handlers : Handlers γ ε σ) (terminal : Terminal γ ε) (invocation : Invocation) :
    Action σ Bool :=
  match terminal.guard with
  | some guard => guard.eval handlers.ask invocation
  | none => return true

/-- Consults the guard once, and runs the executor if it agrees. -/
def execute (handlers : Handlers γ ε σ) (terminal : Terminal γ ε) (invocation : Invocation) :
    Action σ Outcome := do
  if ← terminal.permits handlers invocation then
    match terminal.executor with
    | some executor =>
      handlers.run executor invocation
      return .executed
    | none => return .noExecutor
  else
    return .denied

theorem of?_eq_none_iff {guard : Option (Guard γ)} {executor : Option ε} :
    of? guard executor = none ↔ guard = none ∧ executor = none := by
  cases guard <;> cases executor <;> simp [of?]

theorem of?_eq_some_iff {guard : Option (Guard γ)} {executor : Option ε}
    {terminal : Terminal γ ε} :
    of? guard executor = some terminal ↔ terminal.guard = guard ∧ terminal.executor = executor := by
  obtain ⟨g, e, h⟩ := terminal
  unfold of?
  split
  · simp [eq_comm]
  · rename_i hne
    simp only [reduceCtorEq, false_iff, not_and]
    rintro rfl rfl
    exact hne h

end Terminal

end Dispatch
