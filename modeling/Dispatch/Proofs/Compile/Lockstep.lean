import Dispatch.Proofs.Compile.Coupling
import Dispatch.Proofs.Trie.Frame

/-!
# Compilations under different settings

Settings decide which of two terminals stays at a node and how loudly that is reported, and nothing
else. Two compilations of the same commands under different settings go in step: at every point their
tries have the same frame, they have filled equally many nodes, and the events that they reported
correspond one by one. So they also end alike.

## Main definitions

* `Event.Counterpart` — the same event under different settings
* `Progress.InStep` — two points of compilations under different settings that correspond
* `Compilation.InStep` — two compilations that correspond

## Main results

* `Progress.InStep.ensureChild`, `Progress.InStep.place` — the steps of a compilation keep the two in step
* `Progress.coupling_inStep` — so do the loops
* `CompileUnit.compile_inStep` — compilations under any two settings go in step to the end
-/

set_option autoImplicit false

namespace Dispatch

variable {γ ε : Type} {settings otherSettings : Settings}

/-- The same event under different settings: if it is about a duplicate, then its loudness and the rule
by which the duplicate was settled are those of the settings. -/
inductive Event.Counterpart (settings otherSettings : Settings) : Event → Event → Prop
  | same (event : Event) (plain : ∀ isWarning command node precedence,
      event ≠ .duplicateTerminal isWarning command node precedence) :
      Counterpart settings otherSettings event event
  | duplicate (command : String) (node : NodeId) :
      Counterpart settings otherSettings
        (.duplicateTerminal settings.warnOnDuplicate command node settings.precedence)
        (.duplicateTerminal otherSettings.warnOnDuplicate command node otherSettings.precedence)

/-- The events of two logs correspond one by one. -/
def LogsInStep (settings otherSettings : Settings) (log otherLog : Array Event) : Prop :=
  List.Forall₂ (Event.Counterpart settings otherSettings) log.toList otherLog.toList

theorem LogsInStep.push {log otherLog : Array Event} {event other : Event}
    (inStep : LogsInStep settings otherSettings log otherLog)
    (counterpart : Event.Counterpart settings otherSettings event other) :
    LogsInStep settings otherSettings (log.push event) (otherLog.push other) :=
  forall₂_push inStep counterpart

namespace Progress

variable {progress other : Progress γ ε}

/-- Two points of compilations under different settings correspond: they differ at most in which
terminals stand where one stands, and in what settings say about the events. -/
structure InStep (settings otherSettings : Settings) (progress other : Progress γ ε) : Prop where
  frame : progress.trie.SameFrame other.trie
  terminals_eq : progress.terminals = other.terminals
  log : LogsInStep settings otherSettings progress.log other.log

namespace InStep

theorem start : InStep settings otherSettings (.start : Progress γ ε) .start :=
  ⟨Trie.SameFrame.refl _, rfl, .nil⟩

theorem ensureChild (inStep : InStep settings otherSettings progress other) (parent : NodeId)
    (argument : Argument) :
    EndAlike (InStep settings otherSettings) (Progress.ensureChild parent argument progress)
      (Progress.ensureChild parent argument other) := by
  have size := inStep.frame.size_eq
  rw [Progress.ensureChild_eq, Progress.ensureChild_eq, ← inStep.frame.findChild?_eq]
  cases progress.trie.findChild? parent argument with
  | some id => exact .ok rfl inStep
  | none =>
    by_cases fits : progress.trie.size < NodeId.capacity
    · -- Both append a node in the same slot.
      have fits' : other.trie.size < NodeId.capacity := size ▸ fits
      have slot : (⟨other.trie.size, fits'⟩ : NodeId) = ⟨progress.trie.size, fits⟩ :=
        NodeId.ext size.symm
      simp only [dif_pos fits, dif_pos fits']
      refine .ok slot.symm ⟨?_, inStep.terminals_eq, ?_⟩
      · simp only [slot]
        exact inStep.frame.insertChild rfl size
      · simp only [slot]
        exact inStep.log.push (.same _ (by simp))
    · have full : ¬ other.trie.size < NodeId.capacity := size ▸ fits
      simp only [dif_neg fits, dif_neg full]
      exact .error (congrArg _ size) inStep

/-- A terminal goes to an empty node under all settings. At any other node the frame stays as it is,
whichever of the two terminals stays, and both report the same. -/
theorem putTerminal (inStep : InStep settings otherSettings progress other) (command : String)
    (id : NodeId) (terminal : Terminal γ ε) :
    InStep settings otherSettings (progress.putTerminal settings command id terminal)
      (other.putTerminal otherSettings command id terminal) := by
  -- A terminal stands at the node in both tries or in none of them.
  have held := inStep.frame.isSome_terminal?_eq id
  unfold Progress.putTerminal
  cases here : progress.trie.terminal? id with
  | none =>
    cases there : other.trie.terminal? id with
    | none =>
      exact ⟨inStep.frame.setTerminal id terminal terminal, congrArg (· + 1) inStep.terminals_eq,
        inStep.log⟩
    | some occupant => simp [here, there] at held
  | some occupant =>
    cases there : other.trie.terminal? id with
    | none => simp [here, there] at held
    | some occupant' =>
      refine ⟨?_, inStep.terminals_eq, inStep.log.push (.duplicate command id)⟩
      have isHeld : (progress.trie.terminal? id).isSome := by rw [here]; rfl
      have isHeld' : (other.trie.terminal? id).isSome := by rw [there]; rfl
      -- The four cases are: both replace their terminal, one of them does, or none.
      cases settings.precedence <;> cases otherSettings.precedence
      · exact inStep.frame.setTerminal id terminal terminal
      · exact (Trie.SameFrame.setTerminal_self isHeld terminal).trans inStep.frame
      · exact inStep.frame.trans (Trie.SameFrame.setTerminal_self isHeld' terminal).symm
      · exact inStep.frame

theorem putPlaceholder (inStep : InStep settings otherSettings progress other) (id : NodeId)
    (terminal : Terminal γ ε) :
    InStep settings otherSettings (progress.putPlaceholder id terminal)
      (other.putPlaceholder id terminal) := by
  have held := inStep.frame.isSome_terminal?_eq id
  unfold Progress.putPlaceholder
  cases here : progress.trie.terminal? id with
  | none =>
    cases there : other.trie.terminal? id with
    | none =>
      exact ⟨inStep.frame.setTerminal id terminal terminal, congrArg (· + 1) inStep.terminals_eq,
        inStep.log⟩
    | some occupant => simp [here, there] at held
  | some occupant =>
    cases there : other.trie.terminal? id with
    | none => simp [here, there] at held
    | some occupant' => exact inStep

theorem place (inStep : InStep settings otherSettings progress other) (command : String) (id : NodeId)
    (entry : Option (Entry γ ε)) :
    InStep settings otherSettings (Progress.place settings command id entry progress)
      (Progress.place otherSettings command id entry other) := by
  rcases entry with _ | terminal | terminal
  · exact inStep
  · exact inStep.putTerminal command id terminal
  · exact inStep.putPlaceholder id terminal

end InStep

/-- Processing the same registrations keeps two compilations in step, whatever the settings are. -/
theorem coupling_inStep (settings otherSettings : Settings) :
    Coupling settings otherSettings Eq
      (InStep settings otherSettings : Progress γ ε → Progress γ ε → Prop) where
  ensureChild parent _ _ inStep same := same ▸ inStep.ensureChild parent _
  place command id entry inStep := inStep.place command id entry

end Progress

/-! ### Whole compilations -/

/-- Two compilations correspond: they succeed with tries of the same frame or fail with the same error,
and what they report corresponds. -/
structure Compilation.InStep (settings otherSettings : Settings) (compilation other : Compilation γ ε) :
    Prop where
  error_iff : ∀ error, compilation.result = .error error ↔ other.result = .error error
  frame : ∀ trie, compilation.result = .ok trie →
    ∃ otherTrie, other.result = .ok otherTrie ∧ trie.SameFrame otherTrie
  log : LogsInStep settings otherSettings compilation.log other.log

namespace CompileUnit

/-- Under any two settings, the compilations of the same commands correspond. -/
theorem compile_inStep (unit : CompileUnit γ ε) (settings otherSettings : Settings) :
    Compilation.InStep settings otherSettings (unit.compile settings) (unit.compile otherSettings) := by
  have steps : Progress.EndAlike (Progress.InStep settings otherSettings)
      (Progress.registerAll settings unit.registrations .start)
      (Progress.registerAll otherSettings unit.registrations .start) :=
    (Progress.coupling_inStep settings otherSettings).registerAll .start
      (List.forall₂_same.mpr fun registration _ => .refl registration)
  obtain ⟨progress, other, inStep, ⟨error, failed, failed'⟩ | ⟨compiled, compiled'⟩⟩ :=
    compile_coupled rfl .start steps
  · rw [failed, failed']
    exact ⟨fun _ => Iff.rfl, by simp, inStep.log⟩
  · rw [compiled, compiled']
    refine ⟨by simp, by simpa using inStep.frame, inStep.log.push ?_⟩
    -- The numbers in the last event are those of both.
    rw [inStep.frame.size_eq, inStep.terminals_eq]
    exact .same _ (by cases unit <;> simp [summary])

end CompileUnit

end Dispatch
