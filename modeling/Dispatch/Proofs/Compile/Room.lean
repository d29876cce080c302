import Dispatch.Proofs.Compile.Unit

/-!
# Room in the arena

Usable commands fail to be compiled only for want of room: at every point of a compilation the arena has
numbers for all its slots, and a step that fails has found that all numbers are taken.

## Main definitions

* `Progress.EndsInRoom` — how a step ends that may need another slot
* `Compilation.DecidedByRoom` — a compilation that fails only if its nodes do not fit into an arena

## Main results

* `Progress.registerAll_endsInRoom` — registrations are processed in the room that there is
* `CompileUnit.decidedByRoom_of_usable` — usable commands fail only for want of room
-/

set_option autoImplicit false

namespace Dispatch

variable {γ ε : Type}

namespace Progress

variable {progress : Progress γ ε}

/-- How a step ends that may need another slot: the arena has numbers for all its slots, and if the step
fails, then because all numbers are taken. -/
def EndsInRoom {α : Type} : EStateM.Result CompileError (Progress γ ε) α → Prop
  | .ok _ after => after.trie.size ≤ NodeId.capacity
  | .error error after => error = .capacityExceeded NodeId.capacity ∧ after.trie.size = NodeId.capacity

theorem ensureChild_endsInRoom (fits : progress.trie.size ≤ NodeId.capacity) (parent : NodeId)
    (argument : Argument) : EndsInRoom (ensureChild parent argument progress) := by
  rw [ensureChild_eq]
  split
  · exact fits
  · split
    · rename_i free
      simp only [EndsInRoom, Trie.size_insertChild]
      exact free
    · -- There was a number for every slot, and now there is none left.
      rename_i full
      have taken : progress.trie.size = NodeId.capacity := le_antisymm fits (not_lt.mp full)
      exact ⟨congrArg CompileError.capacityExceeded taken, taken⟩

theorem ensurePath_endsInRoom (fits : progress.trie.size ≤ NodeId.capacity) (start : NodeId)
    (path : List Argument) : EndsInRoom (ensurePath start path progress) := by
  induction path generalizing progress start with
  | nil => exact fits
  | cons argument path ih =>
    have step := ensureChild_endsInRoom fits start argument
    rw [ensurePath_cons]
    split
    · rename_i id next done
      rw [done] at step
      exact ih step id
    · rename_i error next failed
      rw [failed] at step
      exact step

theorem size_place (settings : Settings) (command : String) (id : NodeId) (entry : Option (Entry γ ε))
    (progress : Progress γ ε) :
    (place settings command id entry progress).trie.size = progress.trie.size := by
  rcases trie_place settings command id entry progress with ⟨same, -⟩ | ⟨terminal, put, -⟩
  · rw [same]
  · rw [put, Trie.size_setTerminal]

theorem registerAll_endsInRoom (fits : progress.trie.size ≤ NodeId.capacity) (settings : Settings)
    (registrations : List (Registration γ ε)) :
    EndsInRoom (registerAll settings registrations progress) := by
  induction registrations generalizing progress with
  | nil => exact fits
  | cons registration registrations ih =>
    have walk := ensurePath_endsInRoom fits .root registration.path
    rw [registerAll_cons, register_eq]
    cases walked : ensurePath .root registration.path progress with
    | ok id next =>
      rw [walked] at walk
      exact ih ((size_place settings _ id _ next).trans_le walk)
    | error error next =>
      rw [walked] at walk
      exact walk

end Progress

/-- A compilation of so many nodes ends with a trie if an arena has slots for them, and otherwise with
the report that the arena is full. -/
def Compilation.DecidedByRoom (nodes : Nat) (compilation : Compilation γ ε) : Prop :=
  if nodes ≤ NodeId.capacity then ∃ trie, compilation.result = .ok trie
  else compilation.result = .error (.capacityExceeded NodeId.capacity)

namespace CompileUnit

variable {unit : CompileUnit γ ε}

/-- The registrations of a unit are processed in the room of an arena. -/
theorem registerAll_endsInRoom (settings : Settings) (unit : CompileUnit γ ε) :
    Progress.EndsInRoom (Progress.registerAll settings unit.registrations .start) := by
  have small : (Progress.start : Progress γ ε).trie.size ≤ NodeId.capacity := by
    simp [Progress.start, NodeId.capacity]
  exact Progress.registerAll_endsInRoom small settings unit.registrations

/-- Usable commands fail to be compiled only if their nodes are more than an arena has slots; the slot
that is then missing is the first one without a number. -/
theorem result_eq_error_of_full (usable : unit.Usable) (full : NodeId.capacity < unit.nodeCount)
    (settings : Settings) :
    (unit.compile settings).result = .error (.capacityExceeded NodeId.capacity) := by
  have ends := registerAll_endsInRoom settings unit
  have reached := unit.registerAll_reaches settings
  rw [result_of_usable usable]
  cases ended : Progress.registerAll settings unit.registrations .start with
  | ok done progress =>
    -- A trie that was reached would have room for all nodes.
    rw [ended] at reached
    have room := reached.1.fits
    rw [← reached.1.length_eq, length_paths] at room
    omega
  | error error progress =>
    rw [ended] at ends
    exact congrArg Except.error ends.1

theorem decidedByRoom_of_usable (usable : unit.Usable) (settings : Settings) :
    (unit.compile settings).DecidedByRoom unit.nodeCount := by
  unfold Compilation.DecidedByRoom
  split
  · rename_i fits
    exact (exists_compile_eq_ok_iff settings unit).mpr ⟨usable, fits⟩
  · rename_i full
    exact result_eq_error_of_full usable (not_le.mp full) settings

end CompileUnit

end Dispatch
