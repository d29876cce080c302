import Dispatch.Proofs.Compile.Coupling

/-!
# Compilations at different loudness

Loudness decides at which level second terminals are reported, and nothing else. Two compilations of the same
commands that differ in loudness are in the same state at every point, and what the one has reported is what the
other one has reported, at another level. A compilation that does not warn reports nothing that is shown without
asking for details.

## Main definitions

* `Level.isNotable` — whether events of a level are of note to those who do not ask for details
* `Event.Retold` — the reports of a compilation at two degrees of loudness
* `Event.AgreeButLevel` — two events that differ at most in the level of a report of a second terminal
* `Progress.EqButLoudness` — two points of compilations that differ in loudness

## Main results

* `Progress.coupling_eqButLoudness` — the steps of a compilation keep states equal
* `CompileUnit.compile_eqButLoudness` — loudness does not influence the result of a compilation
* `CompileUnit.not_isNotable_of_mem` — a compilation that does not warn reports nothing of note
-/

set_option autoImplicit false

namespace Dispatch

variable {γ ε : Type} {warns otherWarns : Bool}

/-! ### Events -/

/-- Whether events of a level are of note to those who do not ask for details. -/
def Level.isNotable : Level → Bool
  | trace | debug => false
  | info | warn => true

namespace Event

/-- What a compilation reports, at two degrees of loudness: only second terminals are reported differently. -/
inductive Retold (warns otherWarns : Bool) : Event → Event → Prop
  | created (parent child : NodeId) (argument : Argument) :
      Retold warns otherWarns (.createdNode parent child argument) (.createdNode parent child argument)
  | duplicate (command : String) (node : NodeId) (precedence : Precedence) :
      Retold warns otherWarns (.duplicateTerminal warns command node precedence)
        (.duplicateTerminal otherWarns command node precedence)
  | built (command : String) (nodes terminals : Nat) :
      Retold warns otherWarns (.built command nodes terminals) (.built command nodes terminals)
  | merged (commands nodes terminals : Nat) :
      Retold warns otherWarns (.merged commands nodes terminals) (.merged commands nodes terminals)

/-- The level at which second terminals are reported. -/
def duplicateLevel (warns : Bool) : Level := if warns then .warn else .debug

/-- Two events differ at most in their level, and only if they are about a second terminal; then the level is
that of the loudness. -/
structure AgreeButLevel (warns otherWarns : Bool) (event other : Event) : Prop where
  target_eq : event.target = other.target
  message_eq : event.message = other.message
  fields_eq : event.fields = other.fields
  level_of_duplicate : event.message = "Duplicate terminal" →
    event.level = duplicateLevel warns ∧ other.level = duplicateLevel otherWarns
  eq_of_message_ne : event.message ≠ "Duplicate terminal" → event = other

namespace Retold

variable {event other : Event}

theorem agreeButLevel (retold : Retold warns otherWarns event other) :
    AgreeButLevel warns otherWarns event other := by
  cases retold with
  | duplicate command node precedence =>
    exact ⟨rfl, rfl, rfl, fun _ => ⟨rfl, rfl⟩, fun differs => absurd rfl differs⟩
  | _ => exact ⟨rfl, rfl, rfl, by simp [message], fun _ => rfl⟩

/-- What is reported without warnings is not of note. -/
theorem not_isNotable (retold : Retold false otherWarns event other) : event.level.isNotable = false := by
  cases retold <;> simp [level, Level.isNotable]

end Retold

end Event

/-! ### Steps -/

namespace Progress

variable {progress other : Progress γ ε} {precedence : Precedence}

/-- Two points of compilations that differ in loudness: the states are equal, and so is what was reported, but for
the level of second terminals. -/
structure EqButLoudness (warns otherWarns : Bool) (progress other : Progress γ ε) : Prop where
  trie_eq : progress.trie = other.trie
  terminals_eq : progress.terminals = other.terminals
  log : List.Forall₂ (Event.Retold warns otherWarns) progress.log.toList other.log.toList

namespace EqButLoudness

theorem ensureChild (alike : EqButLoudness warns otherWarns progress other) (parent : NodeId)
    (argument : Argument) :
    EndAlike (EqButLoudness warns otherWarns) (Progress.ensureChild parent argument progress)
      (Progress.ensureChild parent argument other) := by
  obtain ⟨trie, terminals, log⟩ := progress
  obtain ⟨trie', terminals', log'⟩ := other
  obtain ⟨rfl, rfl, logs⟩ := alike
  rw [Progress.ensureChild_eq, Progress.ensureChild_eq]
  cases trie.findChild? parent argument with
  | some id => exact .ok rfl ⟨rfl, rfl, logs⟩
  | none =>
    by_cases fits : trie.size < NodeId.capacity
    · simp only [dif_pos fits]
      exact .ok rfl ⟨rfl, rfl, forall₂_push logs (.created parent _ argument)⟩
    · simp only [dif_neg fits]
      exact .error rfl ⟨rfl, rfl, logs⟩

/-- Whether the newcomer or the one that stands there stays, it is the same in both. -/
theorem place (alike : EqButLoudness warns otherWarns progress other) (command : String) (id : NodeId)
    (entry : Option (Entry γ ε)) :
    EqButLoudness warns otherWarns (Progress.place ⟨precedence, warns⟩ command id entry progress)
      (Progress.place ⟨precedence, otherWarns⟩ command id entry other) := by
  obtain ⟨trie, terminals, log⟩ := progress
  obtain ⟨trie', terminals', log'⟩ := other
  obtain ⟨rfl, rfl, logs⟩ := alike
  rcases entry with _ | terminal | terminal
  · exact ⟨rfl, rfl, logs⟩
  · simp only [Progress.place, putTerminal]
    cases trie.terminal? id with
    | none => exact ⟨rfl, rfl, logs⟩
    | some occupant => exact ⟨rfl, rfl, forall₂_push logs (.duplicate command id precedence)⟩
  · simp only [Progress.place, putPlaceholder]
    cases trie.terminal? id with
    | none => exact ⟨rfl, rfl, logs⟩
    | some occupant => exact ⟨rfl, rfl, logs⟩

end EqButLoudness

/-- Processing the same registrations keeps the states equal, whatever the loudness is. -/
theorem coupling_eqButLoudness (precedence : Precedence) (warns otherWarns : Bool) :
    Coupling ⟨precedence, warns⟩ ⟨precedence, otherWarns⟩ Eq
      (EqButLoudness warns otherWarns : Progress γ ε → Progress γ ε → Prop) where
  ensureChild parent _ _ alike same := same ▸ alike.ensureChild parent _
  place command id entry alike := alike.place command id entry

end Progress

/-! ### Whole compilations -/

namespace CompileUnit

/-- Compilations of the same commands that differ in loudness end with the same error or with the same trie, and
report the same but for the level of second terminals. -/
theorem compile_eqButLoudness (unit : CompileUnit γ ε) (precedence : Precedence) (warns otherWarns : Bool) :
    (unit.compile ⟨precedence, warns⟩).result = (unit.compile ⟨precedence, otherWarns⟩).result ∧
      List.Forall₂ (Event.Retold warns otherWarns) (unit.compile ⟨precedence, warns⟩).log.toList
        (unit.compile ⟨precedence, otherWarns⟩).log.toList := by
  have initially : Progress.EqButLoudness warns otherWarns (.start : Progress γ ε) .start := ⟨rfl, rfl, .nil⟩
  have steps := (Progress.coupling_eqButLoudness precedence warns otherWarns).registerAll initially
    (List.forall₂_same.mpr fun registration (_ : registration ∈ unit.registrations) => .refl registration)
  obtain ⟨progress, other, alike, ⟨error, failed, failed'⟩ | ⟨compiled, compiled'⟩⟩ :=
    compile_coupled rfl initially steps
  · rw [failed, failed']
    exact ⟨rfl, alike.log⟩
  · rw [compiled, compiled', alike.trie_eq, alike.terminals_eq]
    refine ⟨rfl, forall₂_push alike.log ?_⟩
    cases unit with
    | alone command => exact .built ..
    | together commands => exact .merged ..

/-- Nothing that a compilation reports is of note if it does not warn. -/
theorem not_isNotable_of_mem (unit : CompileUnit γ ε) {settings : Settings}
    (silent : settings.warnOnDuplicate = false) {event : Event}
    (reported : event ∈ (unit.compile settings).log.toList) : event.level.isNotable = false := by
  obtain ⟨precedence, warns⟩ := settings
  obtain rfl : warns = false := silent
  have logs := (unit.compile_eqButLoudness precedence false false).2
  obtain ⟨slot, inside, rfl⟩ := List.getElem_of_mem reported
  exact (List.forall₂_iff_get.mp logs |>.2 slot inside inside).not_isNotable

end CompileUnit

end Dispatch
