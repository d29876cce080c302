import Dispatch.Guard
import Mathlib.Data.List.Induction

/-!
# Chains of guards

Guards that are joined one after the other behave like their list: they are asked in order until one
of them denies or panics. Nothing depends on how the joins were bracketed, and a guard that is itself
a join behaves like its leaves.

## Main definitions

* `Guard.joinAll` — joins a list of guards from the left
* `Inquiry`, `inquire` — whom asking in turn reaches, and how it ends
* `AllAgree` — all agree, each in the world that the one before left
* `Contact`, `Handlers.recorded` — handlers that keep a record of whom they reach

## Main results

* `Guard.joinAll_eq_none_iff`, `Guard.joinAll_singleton`, `Guard.exists_joinAll_eq_both` — whether the
  join of a list is absent, its only member, or composed
* `Guard.eval_eq_inquire` — a guard behaves like the list of its leaves
* `inquire_recorded` — the record holds exactly those who were asked
-/

set_option autoImplicit false

namespace Dispatch

/-- A computation goes on with its value and the state that it left, unless it failed. -/
theorem bind_apply {ε σ α β : Type} (step : EStateM ε σ α) (next : α → EStateM ε σ β) (state : σ) :
    (step >>= next) state =
      match step state with
      | .ok value later => next value later
      | .error error later => .error error later := by
  cases ended : step state <;> simp [bind, EStateM.bind, ended]

/-! ### Joining a list -/

namespace Guard

variable {γ : Type} {guards : List (Guard γ)} {guard : Guard γ}

/-- Joins a list of guards from the left. -/
def joinAll (guards : List (Guard γ)) : Option (Guard γ) :=
  guards.foldl (fun joined guard => join joined (some guard)) none

@[simp] theorem joinAll_nil : joinAll ([] : List (Guard γ)) = none := rfl

@[simp] theorem joinAll_singleton (guard : Guard γ) : joinAll [guard] = some guard := rfl

@[simp] theorem joinAll_concat :
    joinAll (guards ++ [guard]) = join (joinAll guards) (some guard) := by
  simp [joinAll]

/-- A guard that may be absent is joined behind the others. -/
theorem joinAll_append_toList (guards : List (Guard γ)) (last : Option (Guard γ)) :
    joinAll (guards ++ last.toList) = join (joinAll guards) last := by
  cases last <;> simp

theorem joinAll_eq_none_iff : joinAll guards = none ↔ guards = [] := by
  induction guards using List.reverseRecOn with
  | nil => simp
  | append_singleton guards guard _ => simp [join_eq_none_iff]

/-- Two or more guards make a composed one. -/
theorem exists_joinAll_eq_both (several : 2 ≤ guards.length) :
    ∃ first second, joinAll guards = some (both first second) := by
  induction guards using List.reverseRecOn with
  | nil => simp at several
  | append_singleton guards guard _ =>
    -- There is a guard before the last one, so the last join has two sides.
    have present : joinAll guards ≠ none := by
      rw [Ne, joinAll_eq_none_iff]
      rintro rfl
      simp at several
    obtain ⟨joined, found⟩ := Option.ne_none_iff_exists'.mp present
    exact ⟨joined, guard, by rw [joinAll_concat, found, join_some_some]⟩

theorem leaves?_joinAll : leaves? (joinAll guards) = guards.flatMap leaves := by
  induction guards using List.reverseRecOn with
  | nil => rfl
  | append_singleton guards guard ih => simp [ih]

end Guard

/-! ### Asking in turn -/

variable {α β γ ε σ : Type} {ask : α → Action σ Bool} {items more : List α} {world later : σ}

/-- What asking in turn came to: who was asked, and how it ended. -/
structure Inquiry (α σ : Type) where
  asked : List α
  ending : EStateM.Result Panic σ Bool

/-- Asks one after the other, each in the world that the one before left, until one denies or
panics. -/
def inquire (ask : α → Action σ Bool) : List α → σ → Inquiry α σ
  | [], world => ⟨[], .ok true world⟩
  | item :: rest, world =>
    match ask item world with
    | .ok true later => ⟨item :: (inquire ask rest later).asked, (inquire ask rest later).ending⟩
    | .ok false later => ⟨[item], .ok false later⟩
    | .error panic later => ⟨[item], .error panic later⟩

/-- All agree, each in the world that the one before left. -/
def AllAgree (ask : α → Action σ Bool) : List α → σ → Prop
  | [], _ => True
  | item :: rest, world => ∃ later, ask item world = .ok true later ∧ AllAgree ask rest later

/-- Those who are asked are the first ones, each of them once. -/
theorem asked_prefix : ∀ (items : List α) (world : σ), (inquire ask items world).asked <+: items
  | [], _ => List.nil_prefix
  | item :: rest, world => by
    rw [inquire]
    split
    · exact List.cons_prefix_cons.mpr ⟨rfl, asked_prefix rest _⟩
    · exact List.cons_prefix_cons.mpr ⟨rfl, List.nil_prefix⟩
    · exact List.cons_prefix_cons.mpr ⟨rfl, List.nil_prefix⟩

theorem inquire_agrees_iff : ∀ (items : List α) (world : σ),
    (∃ later, (inquire ask items world).ending = .ok true later) ↔ AllAgree ask items world
  | [], world => by simp [inquire, AllAgree]
  | item :: rest, world => by
    rw [inquire, AllAgree]
    split
    · rename_i later agreed
      simp [agreed, inquire_agrees_iff rest later]
    · rename_i later denied
      simp [denied]
    · rename_i panic later panicked
      simp [panicked]

/-- If all agree, all were asked. -/
theorem asked_eq_of_agrees : ∀ {items : List α} {world later : σ},
    (inquire ask items world).ending = .ok true later → (inquire ask items world).asked = items
  | [], _, _, _ => rfl
  | item :: rest, world, later, agrees => by
    rw [inquire] at agrees ⊢
    split at agrees
    · exact congrArg (item :: ·) (asked_eq_of_agrees agrees)
    · simp at agrees
    · simp at agrees

/-- Unless all agree, there is one among them before whom all agree and who does not, and nobody behind it
is asked. -/
theorem exists_last_asked : ∀ {items : List α} {world : σ},
    (∀ later, (inquire ask items world).ending ≠ .ok true later) →
      ∃ front last back between, items = front ++ last :: back ∧
        (inquire ask items world).asked = front ++ [last] ∧
        (inquire ask front world).ending = .ok true between ∧
        ask last between = (inquire ask items world).ending
  | [], world, stopped => absurd rfl (stopped world)
  | item :: rest, world, stopped => by
    simp only [inquire] at stopped ⊢
    split at stopped
    · rename_i later agreed
      obtain ⟨front, last, back, between, rfl, asked, agree, ends⟩ := exists_last_asked stopped
      refine ⟨item :: front, last, back, between, rfl, ?_, ?_, ends⟩
      · rw [asked]
        rfl
      · rw [inquire, agreed]
        exact agree
    · rename_i later denied
      exact ⟨[], item, rest, world, rfl, rfl, rfl, denied⟩
    · rename_i panic later panicked
      exact ⟨[], item, rest, world, rfl, rfl, rfl, panicked⟩

/-- The second part of a list is asked only if the first part agrees. -/
theorem ending_append : ∀ (items more : List α) (world : σ),
    (inquire ask (items ++ more) world).ending =
      match (inquire ask items world).ending with
      | .ok true later => (inquire ask more later).ending
      | stopped => stopped
  | [], _, _ => rfl
  | item :: rest, more, world => by
    simp only [List.cons_append, inquire]
    -- Only the agreement of the first one goes on to the rest, here as there.
    split
    · exact ending_append rest more _
    · rfl
    · rfl

/-- Whoever behaves like a list of others can be replaced by them. -/
theorem ending_flatMap {parts : β → List α} {askWhole : β → Action σ Bool}
    (behaves : ∀ whole world, askWhole whole world = (inquire ask (parts whole) world).ending) :
    ∀ (wholes : List β) (world : σ), (inquire askWhole wholes world).ending =
      (inquire ask (wholes.flatMap parts) world).ending
  | [], _ => rfl
  | whole :: rest, world => by
    rw [List.flatMap_cons, ending_append, inquire, behaves]
    split
    · rename_i later agreed
      rw [agreed]
      exact ending_flatMap behaves rest later
    · rename_i later denied
      rw [denied]
    · rename_i panic later panicked
      rw [panicked]

namespace Guard

theorem eval_both {ask : γ → Invocation → Action σ Bool} (first second : Guard γ)
    (invocation : Invocation) (world : σ) :
    (both first second).eval ask invocation world =
      match first.eval ask invocation world with
      | .ok true later => second.eval ask invocation later
      | stopped => stopped := by
  rw [eval, bind_apply]
  cases first.eval ask invocation world with
  | ok answer later => cases answer <;> rfl
  | error panic later => rfl

/-- A guard behaves like the list of its leaves. -/
theorem eval_eq_inquire (ask : γ → Invocation → Action σ Bool) (invocation : Invocation) :
    ∀ (guard : Guard γ) (world : σ), guard.eval ask invocation world =
      (inquire (fun leaf => ask leaf invocation) guard.leaves world).ending
  | single guard, world => by
    rw [eval, leaves, inquire]
    split <;> assumption
  | both first second, world => by
    rw [eval_both, leaves, ending_append, eval_eq_inquire ask invocation first world]
    split
    · exact eval_eq_inquire ask invocation second _
    · rfl

end Guard

/-! ### Keeping a record -/

/-- A guard that was asked, or an executor that was run. -/
inductive Contact (γ ε : Type) where
  | asked (guard : γ)
  | ran (executor : ε)
deriving DecidableEq, Repr

/-- Puts a record beside the world that a computation left. -/
def withRecord {ω : Type} (record : List (Contact γ ε)) :
    EStateM.Result Panic σ ω → EStateM.Result Panic (σ × List (Contact γ ε)) ω
  | .ok value world => .ok value (world, record)
  | .error panic world => .error panic (world, record)

@[simp] theorem withRecord_ok {ω : Type} (record : List (Contact γ ε)) (value : ω) (world : σ) :
    withRecord record (.ok value world : EStateM.Result Panic σ ω) = .ok value (world, record) := rfl

@[simp] theorem withRecord_error {ω : Type} (record : List (Contact γ ε)) (panic : Panic) (world : σ) :
    withRecord record (.error panic world : EStateM.Result Panic σ ω) = .error panic (world, record) :=
  rfl

/-- The same handlers, whoever is asked or run being added to a record, even if it panics. -/
def Handlers.recorded (handlers : Handlers γ ε σ) : Handlers γ ε (σ × List (Contact γ ε)) where
  ask guard invocation state :=
    withRecord (state.2 ++ [.asked guard]) (handlers.ask guard invocation state.1)
  run executor invocation state :=
    withRecord (state.2 ++ [.ran executor]) (handlers.run executor invocation state.1)

/-- The record holds exactly those who were asked, in order. -/
theorem inquire_recorded (handlers : Handlers γ ε σ) (invocation : Invocation) :
    ∀ (guards : List γ) (world : σ) (record : List (Contact γ ε)),
      (inquire (fun guard => handlers.recorded.ask guard invocation) guards (world, record)).ending =
        withRecord
          (record ++ (inquire (fun guard => handlers.ask guard invocation) guards world).asked.map .asked)
          (inquire (fun guard => handlers.ask guard invocation) guards world).ending
  | [], world, record => by simp [inquire, withRecord]
  | guard :: rest, world, record => by
    have called : handlers.recorded.ask guard invocation (world, record) =
        withRecord (record ++ [.asked guard]) (handlers.ask guard invocation world) := rfl
    simp only [inquire, called]
    cases handlers.ask guard invocation world with
    | ok answer later =>
      cases answer with
      | true =>
        -- The rest is asked in the world and with the record that the first one left.
        simp only [withRecord_ok, inquire_recorded handlers invocation rest later, List.map_cons,
          List.append_assoc, List.singleton_append]
      | false => rfl
    | error panic later => rfl

end Dispatch
