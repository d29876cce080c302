import Dispatch.Proofs.Guard.Execution

/-!
# Gates in front of a terminal

A terminal that enforces a list of guards is gated by every beginning of the list: the gates are asked
before anybody else is reached, and if one of them does not agree, nobody else is reached at all.

## Main definitions

* `Terminal.GatedBy` — some guards are asked first, and whatever follows needs their agreement

## Main results

* `Terminal.Enforces.gatedBy` — whoever enforces a list is gated by its beginning
-/

set_option autoImplicit false

namespace Dispatch

variable {γ ε σ : Type}

/-- Asking guards one by one ends as asking all their leaves one by one. -/
theorem ending_eval (ask : γ → Invocation → Action σ Bool) (invocation : Invocation)
    (guards : List (Guard γ)) (world : σ) :
    (inquire (fun guard => guard.eval ask invocation) guards world).ending =
      (inquire (fun leaf => ask leaf invocation) (guards.flatMap Guard.leaves) world).ending :=
  ending_flatMap (fun guard => guard.eval_eq_inquire ask invocation) guards world

/-- Handlers that keep a record reach the leaves of the guards that are asked, and nobody else. -/
theorem ending_eval_recorded (handlers : Handlers γ ε σ) (invocation : Invocation)
    (guards : List (Guard γ)) (world : σ) (record : List (Contact γ ε)) :
    (inquire (fun guard => guard.eval handlers.recorded.ask invocation) guards
        (world, record)).ending =
      withRecord
        (record ++ (inquire (fun leaf => handlers.ask leaf invocation) (guards.flatMap Guard.leaves)
          world).asked.map .asked)
        (inquire (fun guard => guard.eval handlers.ask invocation) guards world).ending := by
  rw [ending_eval, ending_eval, inquire_recorded]

namespace Terminal

/-- The gates are asked in order before anybody else is reached, and only once all of them have
agreed does the execution go on. -/
structure GatedBy (terminal : Terminal γ ε) (gates : List (Guard γ)) : Prop where
  /-- if a gate denies, the outcome is a denial, and only gates up to that one were asked -/
  denied : ∀ {σ : Type} (handlers : Handlers γ ε σ) (invocation : Invocation) {world later : σ}
    (record : List (Contact γ ε)),
    (inquire (fun gate => gate.eval handlers.ask invocation) gates world).ending = .ok false later →
      terminal.execute handlers invocation world = .ok .denied later ∧
      terminal.execute handlers.recorded invocation (world, record) =
        .ok .denied (later, record ++ (inquire (fun leaf => handlers.ask leaf invocation)
          (gates.flatMap Guard.leaves) world).asked.map .asked)
  /-- if a gate panics, so does the execution, and only gates up to that one were asked -/
  panicked : ∀ {σ : Type} (handlers : Handlers γ ε σ) (invocation : Invocation) {world later : σ}
    {panic : Panic} (record : List (Contact γ ε)),
    (inquire (fun gate => gate.eval handlers.ask invocation) gates world).ending =
        .error panic later →
      terminal.execute handlers invocation world = .error panic later ∧
      terminal.execute handlers.recorded invocation (world, record) =
        .error panic (later, record ++ (inquire (fun leaf => handlers.ask leaf invocation)
          (gates.flatMap Guard.leaves) world).asked.map .asked)
  /-- if all gates agree, they are the first to have been asked, and the execution goes on with
  further guards and then the executor -/
  agreed : ∃ further : List (Guard γ), ∀ {σ : Type} (handlers : Handlers γ ε σ)
    (invocation : Invocation) {world later : σ} (record : List (Contact γ ε)),
    (inquire (fun gate => gate.eval handlers.ask invocation) gates world).ending = .ok true later →
      terminal.execute handlers.recorded invocation (world, record) =
        (inquire (fun guard => guard.eval handlers.recorded.ask invocation) further
          (later, record ++ (gates.flatMap Guard.leaves).map .asked)).outcome
            (fun executor => handlers.recorded.run executor invocation) terminal.executor

/-- Whoever enforces a list is gated by its beginning. -/
theorem Enforces.gatedBy {terminal : Terminal γ ε} {gates further : List (Guard γ)}
    (enforces : terminal.Enforces (gates ++ further) terminal.executor) :
    terminal.GatedBy gates := by
  -- What the gates came to decides whether the further guards are asked at all.
  have split {σ : Type} (handlers : Handlers γ ε σ) (invocation : Invocation) (world : σ) :=
    @ending_append _ _ (fun guard : Guard γ => guard.eval handlers.ask invocation) gates further world
  refine ⟨?_, ?_, further, ?_⟩
  · intro σ handlers invocation world later record ended
    constructor
    · rw [enforces.execute_eq, Inquiry.outcome, split, ended]
    · rw [enforces.execute_eq, Inquiry.outcome, split, ending_eval_recorded, ended]
      rfl
  · intro σ handlers invocation world later panic record ended
    constructor
    · rw [enforces.execute_eq, Inquiry.outcome, split, ended]
    · rw [enforces.execute_eq, Inquiry.outcome, split, ending_eval_recorded, ended]
      rfl
  · intro σ handlers invocation world later record ended
    have leaves : (inquire (fun leaf => handlers.ask leaf invocation) (gates.flatMap Guard.leaves)
        world).ending = .ok true later := by
      rw [← ending_eval, ended]
    rw [enforces.execute_eq, Inquiry.outcome, split, ending_eval_recorded, ended, withRecord_ok,
      asked_eq_of_agrees leaves, Inquiry.outcome]

end Terminal

end Dispatch
