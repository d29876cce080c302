import Dispatch.Proofs.Guard.Chain
import Dispatch.Terminal

/-!
# Executing a terminal

A terminal asks the leaves of its guard in order and runs its executor if all of them agree. This is
said once for a terminal as it is, and once for one whose guard was joined from a list: such a
terminal enforces the list. Terminals of the same executor whose guards have the same leaves behave
alike.

## Main definitions

* `Inquiry.outcome`, `Inquiry.contacts` — what follows from an inquiry, and whom it reaches in all
* `Terminal.Enforces` — a terminal asks a list of guards in order before it runs an executor
* `Terminal.Alike` — two terminals that cannot be told apart by using them

## Main results

* `Terminal.permits_eq_inquire`, `Terminal.execute_eq_inquire` — a terminal asks the leaves in order
* `Terminal.enforces_of_joinAll` — a terminal with a joined guard enforces the list
* `Terminal.alike_of_leaves?_eq` — how guards are bracketed makes no difference
-/

set_option autoImplicit false

namespace Dispatch

variable {α γ ε σ : Type}

namespace Inquiry

/-- What follows from an inquiry: an executor is run only if all agreed. -/
def outcome (run : ε → Action σ Unit) (executor : Option ε) (inquiry : Inquiry α σ) :
    EStateM.Result Panic σ Outcome :=
  match inquiry.ending with
  | .error panic later => .error panic later
  | .ok false later => .ok .denied later
  | .ok true later =>
    match executor with
    | none => .ok .noExecutor later
    | some executor =>
      match run executor later with
      | .ok () last => .ok .executed last
      | .error panic last => .error panic last

/-- Whom an inquiry and what follows from it reaches: those who are asked, and then the executor if
there is one and all agreed. -/
def contacts (executor : Option ε) (inquiry : Inquiry γ σ) : List (Contact γ ε) :=
  inquiry.asked.map .asked ++
    match inquiry.ending with
    | .ok true _ => executor.toList.map .ran
    | _ => []

end Inquiry

namespace Terminal

/-- A terminal asks the leaves of its guard. -/
theorem permits_eq_inquire (handlers : Handlers γ ε σ) (terminal : Terminal γ ε)
    (invocation : Invocation) (world : σ) :
    terminal.permits handlers invocation world =
      (inquire (fun leaf => handlers.ask leaf invocation) (Guard.leaves? terminal.guard)
        world).ending := by
  unfold permits
  cases terminal.guard with
  | none => rfl
  | some guard => exact guard.eval_eq_inquire handlers.ask invocation world

/-- A terminal asks the leaves of its guard once, and then runs its executor if they agree. -/
theorem execute_eq_inquire (handlers : Handlers γ ε σ) (terminal : Terminal γ ε)
    (invocation : Invocation) (world : σ) :
    terminal.execute handlers invocation world =
      (inquire (fun leaf => handlers.ask leaf invocation) (Guard.leaves? terminal.guard)
        world).outcome (fun executor => handlers.run executor invocation) terminal.executor := by
  rw [execute, bind_apply, permits_eq_inquire, Inquiry.outcome]
  split
  · rename_i answer later ended
    rw [ended]
    cases answer with
    | false => rfl
    | true =>
      cases terminal.executor with
      | none => rfl
      | some executor =>
        simp only [if_true, bind_apply]
        cases handlers.run executor invocation later <;> rfl
  · rename_i panic later ended
    rw [ended]

/-- Handlers that keep a record reach exactly those whom the inquiry and its outcome reach. -/
theorem execute_recorded (handlers : Handlers γ ε σ) (terminal : Terminal γ ε)
    (invocation : Invocation) (world : σ) (record : List (Contact γ ε)) :
    terminal.execute handlers.recorded invocation (world, record) =
      withRecord
        (record ++ (inquire (fun leaf => handlers.ask leaf invocation)
          (Guard.leaves? terminal.guard) world).contacts terminal.executor)
        (terminal.execute handlers invocation world) := by
  rw [execute_eq_inquire, execute_eq_inquire, Inquiry.outcome, Inquiry.outcome, inquire_recorded,
    Inquiry.contacts]
  cases (inquire (fun leaf => handlers.ask leaf invocation) (Guard.leaves? terminal.guard)
      world).ending with
  | error panic later => simp
  | ok answer later =>
    cases answer with
    | false => simp
    | true =>
      cases terminal.executor with
      | none => simp
      | some executor =>
        -- The executor is run in the world that the last guard left, and it is recorded last.
        have called : ∀ record : List (Contact γ ε),
            handlers.recorded.run executor invocation (later, record) =
              withRecord (record ++ [.ran executor]) (handlers.run executor invocation later) :=
          fun _ => rfl
        simp only [withRecord_ok, called]
        cases handlers.run executor invocation later <;> simp

/-! ### Enforcing a list of guards -/

/-- A terminal asks a list of guards in order before it runs an executor. -/
structure Enforces (terminal : Terminal γ ε) (guards : List (Guard γ)) (executor : Option ε) :
    Prop where
  /-- the guards are asked in order, until one denies or panics -/
  permits_eq : ∀ {σ : Type} (handlers : Handlers γ ε σ) (invocation : Invocation) (world : σ),
    terminal.permits handlers invocation world =
      (inquire (fun guard => guard.eval handlers.ask invocation) guards world).ending
  /-- the answer is yes if and only if all agree -/
  permits_iff : ∀ {σ : Type} (handlers : Handlers γ ε σ) (invocation : Invocation) (world : σ),
    (∃ later, terminal.permits handlers invocation world = .ok true later) ↔
      AllAgree (fun guard => guard.eval handlers.ask invocation) guards world
  /-- the executor, if there is one, is run after all of them have agreed -/
  execute_eq : ∀ {σ : Type} (handlers : Handlers γ ε σ) (invocation : Invocation) (world : σ),
    terminal.execute handlers invocation world =
      (inquire (fun guard => guard.eval handlers.ask invocation) guards world).outcome
        (fun executor => handlers.run executor invocation) executor
  /-- those who are asked are the first ones, each of them once -/
  asked_prefix : ∀ {σ : Type} (handlers : Handlers γ ε σ) (invocation : Invocation) (world : σ),
    (inquire (fun leaf => handlers.ask leaf invocation) (guards.flatMap Guard.leaves) world).asked <+:
      guards.flatMap Guard.leaves
  /-- none of them is left out before the answer is yes -/
  asked_eq : ∀ {σ : Type} (handlers : Handlers γ ε σ) (invocation : Invocation) {world later : σ},
    terminal.permits handlers invocation world = .ok true later →
      (inquire (fun leaf => handlers.ask leaf invocation) (guards.flatMap Guard.leaves) world).asked =
        guards.flatMap Guard.leaves
  /-- permitting reaches those who are asked, and nobody else -/
  permits_record : ∀ {σ : Type} (handlers : Handlers γ ε σ) (invocation : Invocation) (world : σ)
    (record : List (Contact γ ε)),
    terminal.permits handlers.recorded invocation (world, record) =
      withRecord
        (record ++ (inquire (fun leaf => handlers.ask leaf invocation) (guards.flatMap Guard.leaves)
          world).asked.map .asked)
        (terminal.permits handlers invocation world)
  /-- executing reaches the same, and then the executor once if all have agreed -/
  execute_record : ∀ {σ : Type} (handlers : Handlers γ ε σ) (invocation : Invocation) (world : σ)
    (record : List (Contact γ ε)),
    terminal.execute handlers.recorded invocation (world, record) =
      withRecord
        (record ++ (inquire (fun leaf => handlers.ask leaf invocation) (guards.flatMap Guard.leaves)
          world).contacts executor)
        (terminal.execute handlers invocation world)

/-- A terminal whose guard is the join of a list enforces the list. -/
theorem enforces_of_joinAll {terminal : Terminal γ ε} {guards : List (Guard γ)}
    (joined : terminal.guard = Guard.joinAll guards) : terminal.Enforces guards terminal.executor := by
  have leaves : Guard.leaves? terminal.guard = guards.flatMap Guard.leaves := by
    rw [joined, Guard.leaves?_joinAll]
  -- Asking the guards one by one ends as asking all their leaves one by one.
  have same {σ : Type} (handlers : Handlers γ ε σ) (invocation : Invocation) (world : σ) :
      (inquire (fun guard => guard.eval handlers.ask invocation) guards world).ending =
        (inquire (fun leaf => handlers.ask leaf invocation) (Guard.leaves? terminal.guard)
          world).ending := by
    rw [leaves]
    exact ending_flatMap (fun guard => guard.eval_eq_inquire handlers.ask invocation) guards world
  refine ⟨?_, ?_, ?_, ?_, ?_, ?_, ?_⟩
  · intro σ handlers invocation world
    rw [permits_eq_inquire, same]
  · intro σ handlers invocation world
    rw [permits_eq_inquire, ← same, inquire_agrees_iff]
  · intro σ handlers invocation world
    rw [execute_eq_inquire, Inquiry.outcome, Inquiry.outcome, same]
  · intro σ handlers invocation world
    exact asked_prefix _ _
  · intro σ handlers invocation world later permitted
    rw [permits_eq_inquire, leaves] at permitted
    exact asked_eq_of_agrees permitted
  · intro σ handlers invocation world record
    rw [permits_eq_inquire, permits_eq_inquire, inquire_recorded, leaves]
  · intro σ handlers invocation world record
    rw [execute_recorded, leaves]

/-! ### Terminals that behave alike -/

/-- Two terminals run the same executor and ask the same guards in the same order, though their guards
may be bracketed in different ways. -/
structure Alike (terminal other : Terminal γ ε) : Prop where
  executor_eq : terminal.executor = other.executor
  /-- both have a guard, or neither has -/
  isSome_guard_eq : terminal.guard.isSome = other.guard.isSome
  leaves?_eq : Guard.leaves? terminal.guard = Guard.leaves? other.guard
  /-- permitting has the same answer and the same effects, whatever the guards do; that the same ones
  are asked is the case of handlers that keep a record -/
  permits_eq : ∀ {σ : Type} (handlers : Handlers γ ε σ) (invocation : Invocation) (world : σ),
    terminal.permits handlers invocation world = other.permits handlers invocation world
  /-- executing has the same outcome and the same effects -/
  execute_eq : ∀ {σ : Type} (handlers : Handlers γ ε σ) (invocation : Invocation) (world : σ),
    terminal.execute handlers invocation world = other.execute handlers invocation world

theorem alike_of_leaves?_eq {terminal other : Terminal γ ε}
    (executor : terminal.executor = other.executor)
    (leaves : Guard.leaves? terminal.guard = Guard.leaves? other.guard) : terminal.Alike other := by
  have guarded : terminal.guard.isSome = other.guard.isSome := by
    rw [Bool.eq_iff_iff, Option.isSome_iff_ne_none, Option.isSome_iff_ne_none, Ne, Ne,
      ← Guard.leaves?_eq_nil_iff, ← Guard.leaves?_eq_nil_iff, leaves]
  refine ⟨executor, guarded, leaves, ?_, ?_⟩
  · intro σ handlers invocation world
    rw [permits_eq_inquire, permits_eq_inquire, leaves]
  · intro σ handlers invocation world
    rw [execute_eq_inquire, execute_eq_inquire, leaves, executor]

/-- From guards of the same leaves and the same executor come terminals that behave alike, or none. -/
theorem of?_alike {guard other : Option (Guard γ)} (executor : Option ε)
    (leaves : Guard.leaves? guard = Guard.leaves? other) :
    Option.Rel Alike (of? guard executor) (of? other executor) := by
  cases made : of? guard executor with
  | none =>
    -- No guard and no executor on the one side, so none on the other side.
    obtain ⟨rfl, rfl⟩ := of?_eq_none_iff.mp made
    have bare : other = none := Guard.leaves?_eq_nil_iff.mp leaves.symm
    rw [bare, made]
    exact .none
  | some terminal =>
    obtain ⟨guardIs, executorIs⟩ := of?_eq_some_iff.mp made
    cases made' : of? other executor with
    | none =>
      obtain ⟨rfl, rfl⟩ := of?_eq_none_iff.mp made'
      rw [Guard.leaves?_eq_nil_iff.mp leaves] at made
      exact absurd (made'.symm.trans made) (Option.some_ne_none _).symm
    | some terminal' =>
      obtain ⟨guardIs', executorIs'⟩ := of?_eq_some_iff.mp made'
      refine .some (alike_of_leaves?_eq (executorIs.trans executorIs'.symm) ?_)
      rw [guardIs, guardIs', leaves]

end Terminal

end Dispatch
