import Dispatch.Proofs.Compile.Unit
import Mathlib.Data.List.Forall2

/-!
# Two compilations side by side

Two compilations are compared point by point: a relation between their states that every child and every
entry keeps is kept by the paths that are walked and by the registrations that are processed, and the two
fail at the same point with the same error, or not at all. What the relation is, whether the settings are
the same and how the arguments of the two correspond is left open.

## Main definitions

* `Progress.EndAlike` — two steps succeed or fail together, at states that are related
* `Registration.Alike` — two registrations whose arguments correspond
* `Progress.Coupling` — a relation that the steps of two compilations keep

## Main results

* `Progress.EndAlike.bind` — what is done after steps that end alike
* `Progress.Coupling.registerAll` — processing registrations one by one keeps the relation
* `CompileUnit.compile_coupled` — how the two compilations end
-/

set_option autoImplicit false

namespace Dispatch

variable {γ ε : Type}

/-- Logs whose events are related one by one stay so when two related events are added. -/
theorem forall₂_push {Related : Event → Event → Prop} {log otherLog : Array Event} {event other : Event}
    (logs : List.Forall₂ Related log.toList otherLog.toList) (related : Related event other) :
    List.Forall₂ Related (log.push event).toList (otherLog.push other).toList := by
  rw [Array.toList_push, Array.toList_push]
  exact List.rel_append logs (.cons related .nil)

/-- Two registrations put the same at the ends of paths whose arguments correspond. -/
structure Registration.Alike (Corresponds : Argument → Argument → Prop)
    (registration other : Registration γ ε) : Prop where
  path : List.Forall₂ Corresponds registration.path other.path
  command_eq : registration.command = other.command
  entry_eq : registration.entry = other.entry

theorem Registration.Alike.refl (registration : Registration γ ε) : registration.Alike Eq registration :=
  ⟨List.forall₂_same.mpr fun _ _ => rfl, rfl, rfl⟩

namespace Progress

variable {Related : Progress γ ε → Progress γ ε → Prop} {progress other : Progress γ ε}

/-- Two steps end alike: both succeed with the same value, or both fail with the same error, at states that
are related. -/
inductive EndAlike (Related : Progress γ ε → Progress γ ε → Prop) {α : Type} :
    EStateM.Result CompileError (Progress γ ε) α → EStateM.Result CompileError (Progress γ ε) α → Prop
  | ok {a b : α} {progress other : Progress γ ε} (same : a = b) (related : Related progress other) :
      EndAlike Related (.ok a progress) (.ok b other)
  | error {e f : CompileError} {progress other : Progress γ ε} (same : e = f)
      (related : Related progress other) : EndAlike Related (.error e progress) (.error f other)

theorem EndAlike.refl {α : Type} (reflexive : ∀ progress, Related progress progress)
    (result : EStateM.Result CompileError (Progress γ ε) α) : EndAlike Related result result := by
  cases result with
  | ok a progress => exact .ok rfl (reflexive progress)
  | error error progress => exact .error rfl (reflexive progress)

theorem EndAlike.trans {α : Type} {result otherResult third : EStateM.Result CompileError (Progress γ ε) α}
    (transitive : ∀ {progress other later : Progress γ ε}, Related progress other →
      Related other later → Related progress later)
    (first : EndAlike Related result otherResult) (second : EndAlike Related otherResult third) :
    EndAlike Related result third := by
  cases first with
  | ok same related =>
    cases second with
    | ok same' related' => exact .ok (same.trans same') (transitive related related')
  | error same related =>
    cases second with
    | error same' related' => exact .error (same.trans same') (transitive related related')

/-- What is done after steps that end alike ends alike, if it does so at any two related states. -/
theorem EndAlike.bind {α β : Type} {step otherStep : Compile γ ε α}
    {next otherNext : α → Compile γ ε β} (steps : EndAlike Related (step progress) (otherStep other))
    (follow : ∀ a {progress other : Progress γ ε}, Related progress other →
      EndAlike Related (next a progress) (otherNext a other)) :
    EndAlike Related ((step >>= next) progress) ((otherStep >>= otherNext) other) := by
  rw [bind_apply, bind_apply]
  generalize step progress = result at steps
  generalize otherStep other = otherResult at steps
  cases steps with
  | ok same related =>
    subst same
    exact follow _ related
  | error same related => exact .error same related

/-- A relation between the states of two compilations that is kept whenever both look for a child under
arguments that correspond, and whenever the same entry comes to the same node in both. -/
structure Coupling (settings otherSettings : Settings) (Corresponds : Argument → Argument → Prop)
    (Related : Progress γ ε → Progress γ ε → Prop) : Prop where
  ensureChild : ∀ {progress other : Progress γ ε} (parent : NodeId) {a b : Argument},
    Related progress other → Corresponds a b →
      EndAlike Related (Progress.ensureChild parent a progress) (Progress.ensureChild parent b other)
  place : ∀ {progress other : Progress γ ε} (command : String) (id : NodeId)
    (entry : Option (Entry γ ε)), Related progress other →
      Related (Progress.place settings command id entry progress)
        (Progress.place otherSettings command id entry other)

namespace Coupling

variable {settings otherSettings : Settings} {Corresponds : Argument → Argument → Prop}
  {path otherPath : List Argument} {registration otherRegistration : Registration γ ε}
  {registrations otherRegistrations : List (Registration γ ε)}

theorem ensurePath (coupling : Coupling settings otherSettings Corresponds Related)
    (related : Related progress other) (start : NodeId)
    (paths : List.Forall₂ Corresponds path otherPath) :
    EndAlike Related (Progress.ensurePath start path progress)
      (Progress.ensurePath start otherPath other) := by
  induction paths generalizing progress other start with
  | nil => exact .ok rfl related
  | cons corresponds _ ih =>
    rw [Progress.ensurePath, Progress.ensurePath, List.foldlM_cons, List.foldlM_cons]
    exact (coupling.ensureChild start related corresponds).bind fun id _ _ related' => ih related' id

theorem register (coupling : Coupling settings otherSettings Corresponds Related)
    (related : Related progress other) (alike : registration.Alike Corresponds otherRegistration) :
    EndAlike Related (Progress.register settings registration progress)
      (Progress.register otherSettings otherRegistration other) := by
  refine (coupling.ensurePath related .root alike.path).bind fun id _ _ related' => ?_
  refine .ok rfl ?_
  rw [← alike.command_eq, ← alike.entry_eq]
  exact coupling.place _ _ _ related'

/-- Processing registrations that correspond one by one keeps a relation that every step keeps. -/
theorem registerAll (coupling : Coupling settings otherSettings Corresponds Related)
    (related : Related progress other)
    (alike : List.Forall₂ (Registration.Alike Corresponds) registrations otherRegistrations) :
    EndAlike Related (Progress.registerAll settings registrations progress)
      (Progress.registerAll otherSettings otherRegistrations other) := by
  induction alike generalizing progress other with
  | nil => exact .ok rfl related
  | cons first _ ih =>
    exact (coupling.register related first).bind fun _ _ _ related' => ih related'

end Coupling

end Progress

/-! ### Whole compilations -/

/-- Two units that are refused for the same offence, if they are, and whose registrations are processed to
the same end compile to the same end: both compilations are refused, or they fail or succeed at states
that are related. -/
theorem CompileUnit.compile_coupled {Related : Progress γ ε → Progress γ ε → Prop}
    {settings otherSettings : Settings} {unit other : CompileUnit γ ε}
    (offences : Command.firstOffence? unit.commands = Command.firstOffence? other.commands)
    (initially : Related .start .start)
    (ends : Progress.EndAlike Related (Progress.registerAll settings unit.registrations .start)
      (Progress.registerAll otherSettings other.registrations .start)) :
    ∃ progress progress', Related progress progress' ∧
      ((∃ error, unit.compile settings = ⟨.error error, progress.log⟩ ∧
          other.compile otherSettings = ⟨.error error, progress'.log⟩) ∨
        unit.compile settings = ⟨.ok progress.trie,
            progress.log.push (unit.summary progress.trie.size progress.terminals)⟩ ∧
          other.compile otherSettings = ⟨.ok progress'.trie,
            progress'.log.push (other.summary progress'.trie.size progress'.terminals)⟩) := by
  cases first : Command.firstOffence? unit.commands with
  | some cause =>
    refine ⟨.start, .start, initially, Or.inl ⟨.invalid cause, ?_, ?_⟩⟩
    · exact compile_eq_of_offence first settings
    · exact compile_eq_of_offence (offences ▸ first) otherSettings
  | none =>
    have usable : unit.Usable := Command.firstOffence?_eq_none_iff.mp first
    have otherUsable : other.Usable := Command.firstOffence?_eq_none_iff.mp (offences ▸ first)
    rw [compile_eq_of_usable usable, compile_eq_of_usable otherUsable, Trie.compile, Trie.compile]
    revert ends
    generalize Progress.registerAll settings unit.registrations .start = result
    generalize Progress.registerAll otherSettings other.registrations .start = otherResult
    intro ends
    cases ends with
    | ok _ related => exact ⟨_, _, related, Or.inr ⟨rfl, rfl⟩⟩
    | @error error _ _ _ same related =>
      subst same
      exact ⟨_, _, related, Or.inl ⟨error, rfl, rfl⟩⟩

end Dispatch
