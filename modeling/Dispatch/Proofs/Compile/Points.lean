import Dispatch.Proofs.Compile.Ownership
import Dispatch.Proofs.Trie.Extension
import Dispatch.Proofs.Trie.WellFormed
import Mathlib.Logic.Relation

/-!
# Well-formedness at every point of a compilation

A compilation changes its trie in three ways: by finding or appending a child, by putting a terminal
and by putting a placeholder. Each of them keeps the trie well formed, so it is well formed at every
point, whatever is compiled and whether or not the compilation comes to an end. And each of them extends
the trie, so that no node is moved.

## Main definitions

* `Progress.Change` — one call that may change the trie, at a node that is there
* `Progress.Passes` — the points through which the processing of registrations passes

## Main results

* `Progress.Change.wellFormed`, `Progress.Change.extends` — one call keeps the trie well formed and
  extends it
* `Progress.kept_of_reachable` — what every call keeps holds wherever calls lead
* `Progress.Passes.reachable` — every point of a compilation is reached by calls
* `Progress.Passes.terminal?_root` — the root stays bare where nothing is registered at it
* `CompileUnit.wellFormed_throughout` — the trie is well formed at every point and at the end, where
  the root has a terminal exactly if the command of the root has a guard or an executor
-/

set_option autoImplicit false

namespace Dispatch

open Argument

variable {γ ε : Type}

namespace Progress

variable {settings : Settings} {progress after : Progress γ ε} {parent id : NodeId}
  {argument : Argument} {path : List Argument} {registration : Registration γ ε}
  {registrations : List (Registration γ ε)}

/-- One call that may change the trie, made for a node that is there. -/
inductive Change (settings : Settings) : Progress γ ε → Progress γ ε → Prop
  | child {progress after : Progress γ ε} {parent id : NodeId} {argument : Argument}
      (valid : parent.index < progress.trie.size)
      (ensured : ensureChild parent argument progress = .ok id after) : Change settings progress after
  | terminal {progress : Progress γ ε} {id : NodeId} (command : String) (terminal : Terminal γ ε)
      (valid : id.index < progress.trie.size) :
      Change settings progress (progress.putTerminal settings command id terminal)
  | placeholder {progress : Progress γ ε} {id : NodeId} (terminal : Terminal γ ε)
      (valid : id.index < progress.trie.size) :
      Change settings progress (progress.putPlaceholder id terminal)

/-- The points through which the processing of registrations passes: the start, any point on the way
along the path of the first registration, and the points behind it. -/
inductive Passes (settings : Settings) :
    List (Registration γ ε) → Progress γ ε → Progress γ ε → Prop
  | start (registrations : List (Registration γ ε)) (progress : Progress γ ε) :
      Passes settings registrations progress progress
  | along {registration : Registration γ ε} {rest : List (Registration γ ε)}
      {progress point : Progress γ ε} {path : List Argument} {id : NodeId}
      (beginning : path <+: registration.path)
      (walked : ensurePath .root path progress = .ok id point) :
      Passes settings (registration :: rest) progress point
  | behind {registration : Registration γ ε} {rest : List (Registration γ ε)}
      {progress next point : Progress γ ε}
      (processed : register settings registration progress = .ok () next)
      (passes : Passes settings rest next point) :
      Passes settings (registration :: rest) progress point

/-! ### What a call does -/

/-- Placing an entry changes the trie by at most one terminal. -/
theorem wellFormed_place (settings : Settings) (command : String) (id : NodeId)
    (entry : Option (Entry γ ε)) (formed : progress.trie.WellFormed) :
    (place settings command id entry progress).trie.WellFormed := by
  rcases trie_place settings command id entry progress with ⟨same, -⟩ | ⟨terminal, put, -⟩
  · rw [same]
    exact formed
  · rw [put]
    exact formed.setTerminal id terminal

theorem Change.wellFormed (change : Change settings progress after)
    (formed : progress.trie.WellFormed) : after.trie.WellFormed := by
  cases change with
  | child valid ensured =>
    rcases ensureChild_cases ensured with ⟨-, rfl⟩ | ⟨absent, free, appended⟩
    · exact formed
    · rw [appended]
      exact formed.insertChild free valid absent
  | terminal command terminal valid =>
    exact wellFormed_place settings command _ (some (.terminal terminal)) formed
  | placeholder terminal valid =>
    exact wellFormed_place settings "" _ (some (.placeholder terminal)) formed

theorem ensureChild_extends (valid : parent.index < progress.trie.size)
    (ensured : ensureChild parent argument progress = .ok id after) :
    after.trie.Extends progress.trie := by
  rcases ensureChild_cases ensured with ⟨-, rfl⟩ | ⟨-, free, appended⟩
  · exact Trie.Extends.refl _
  · rw [appended]
    exact Trie.Extends.insertChild valid free

theorem extends_place (settings : Settings) (command : String) (entry : Option (Entry γ ε))
    (valid : id.index < progress.trie.size) :
    (place settings command id entry progress).trie.Extends progress.trie := by
  rcases trie_place settings command id entry progress with ⟨same, -⟩ | ⟨terminal, put, -⟩
  · rw [same]
    exact Trie.Extends.refl _
  · rw [put]
    exact Trie.Extends.setTerminal valid terminal

/-- Every call extends the trie. -/
theorem Change.extends (change : Change settings progress after) :
    after.trie.Extends progress.trie := by
  cases change with
  | child valid ensured => exact ensureChild_extends valid ensured
  | terminal command terminal valid =>
    exact extends_place settings command (some (.terminal terminal)) valid
  | placeholder terminal valid =>
    exact extends_place settings "" (some (.placeholder terminal)) valid

/-- What every call keeps holds wherever calls lead. -/
theorem kept_of_reachable {P : Progress γ ε → Prop}
    (kept : ∀ ⦃progress after : Progress γ ε⦄, Change settings progress after → P progress → P after)
    (reachable : Relation.ReflTransGen (Change settings) progress after) (initially : P progress) :
    P after := by
  induction reachable with
  | refl => exact initially
  | tail _ change ih => exact kept change ih

theorem wellFormed_of_reachable (reachable : Relation.ReflTransGen (Change settings) progress after)
    (formed : progress.trie.WellFormed) : after.trie.WellFormed :=
  kept_of_reachable (fun _ _ change formed => change.wellFormed formed) reachable formed

/-! ### The points of a compilation -/

/-- Walking along a path is a sequence of calls and ends at a node. -/
theorem ensurePath_reachable (settings : Settings) {start : NodeId} (valid : start.index < progress.trie.size)
    (walked : ensurePath start path progress = .ok id after) :
    Relation.ReflTransGen (Change settings) progress after ∧ id.index < after.trie.size := by
  induction path generalizing start progress with
  | nil =>
    obtain ⟨rfl, rfl⟩ : start = id ∧ progress = after := by
      injection walked with same unchanged
      exact ⟨same, unchanged⟩
    exact ⟨.refl, valid⟩
  | cons argument path ih =>
    rw [ensurePath_cons] at walked
    split at walked
    · rename_i next between ensured
      obtain ⟨reachable, inside⟩ := ih (ensureChild_valid ensured) walked
      exact ⟨.head (.child valid ensured) reachable, inside⟩
    · simp at walked

theorem register_reachable (processed : register settings registration progress = .ok () after) :
    Relation.ReflTransGen (Change settings) progress after := by
  rw [register_eq] at processed
  split at processed
  · rename_i id between walked
    obtain ⟨reachable, inside⟩ := ensurePath_reachable settings progress.trie.nonempty walked
    injection processed with _ placed
    rcases entry : registration.entry with _ | terminal | terminal
    · rw [entry] at placed
      exact placed ▸ reachable
    · rw [entry] at placed
      exact placed ▸ reachable.tail (.terminal registration.command terminal inside)
    · rw [entry] at placed
      exact placed ▸ reachable.tail (.placeholder terminal inside)
  · simp at processed

/-- Every point of a compilation is reached by calls. -/
theorem Passes.reachable (passes : Passes settings registrations progress after) :
    Relation.ReflTransGen (Change settings) progress after := by
  induction passes with
  | start => exact .refl
  | along _ walked => exact (ensurePath_reachable _ (Trie.nonempty _) walked).1
  | behind processed _ ih => exact (register_reachable processed).trans ih

/-- The end of a compilation is one of its points. -/
theorem passes_of_registerAll (ended : registerAll settings registrations progress = .ok () after) :
    Passes settings registrations progress after := by
  induction registrations generalizing progress with
  | nil =>
    injection ended with _ unchanged
    exact unchanged ▸ .start [] progress
  | cons registration registrations ih =>
    rw [registerAll_cons] at ended
    split at ended
    · rename_i next processed
      exact .behind processed (ih ended)
    · simp at ended

/-- Processing registrations extends the trie. -/
theorem extends_of_registerAll (ended : registerAll settings registrations progress = .ok () after) :
    after.trie.Extends progress.trie :=
  kept_of_reachable (P := fun point => point.trie.Extends progress.trie)
    (fun _ _ change grown => change.extends.trans grown) (passes_of_registerAll ended).reachable
    (Trie.Extends.refl _)

/-! ### The root -/

theorem ensureChild_ne_root (ensured : ensureChild parent argument progress = .ok id after) :
    id ≠ .root := by
  have behind : 0 < id.index := by
    rcases ensureChild_cases ensured with ⟨present, -⟩ | ⟨-, free, -⟩
    · have descends := progress.trie.children_descend (Trie.findChild?_mem present)
      omega
    · rw [free]
      exact progress.trie.nonempty
  rintro rfl
  exact absurd behind (lt_irrefl _)

theorem ensureChild_terminal? (ensured : ensureChild parent argument progress = .ok id after)
    (other : NodeId) : after.trie.terminal? other = progress.trie.terminal? other := by
  rcases ensureChild_cases ensured with ⟨-, rfl⟩ | ⟨-, free, appended⟩
  · rfl
  · rw [appended, Trie.terminal?_insertChild]

/-- Walking changes no terminal, and does not come back to the root. -/
theorem ensurePath_terminal? {start : NodeId}
    (walked : ensurePath start path progress = .ok id after) :
    (∀ other, after.trie.terminal? other = progress.trie.terminal? other) ∧
      (path ≠ [] → id ≠ .root) := by
  induction path generalizing start progress with
  | nil =>
    injection walked with _ unchanged
    exact ⟨fun _ => unchanged ▸ rfl, fun proper => absurd rfl proper⟩
  | cons argument path ih =>
    rw [ensurePath_cons] at walked
    split at walked
    · rename_i next between ensured
      obtain ⟨kept, below⟩ := ih walked
      refine ⟨fun other => (kept other).trans (ensureChild_terminal? ensured other), fun _ => ?_⟩
      -- Only the last step decides which node is reached.
      by_cases last : path = []
      · subst last
        injection walked with same _
        exact same ▸ ensureChild_ne_root ensured
      · exact below last
    · simp at walked

theorem terminal?_root_place (settings : Settings) (command : String)
    (entry : Option (Entry γ ε)) (inside : id.index < progress.trie.size) (below : id ≠ .root) :
    (place settings command id entry progress).trie.terminal? .root =
      progress.trie.terminal? .root := by
  rcases trie_place settings command id entry progress with ⟨same, -⟩ | ⟨terminal, put, -⟩
  · rw [same]
  · rw [put, Trie.terminal?_setTerminal inside, if_neg (Ne.symm below)]

/-- Registrations behind the root leave the root without a terminal, at every point. -/
theorem Passes.terminal?_root (passes : Passes settings registrations progress after)
    (proper : ∀ registration ∈ registrations, registration.path ≠ [])
    (bare : progress.trie.terminal? .root = none) : after.trie.terminal? .root = none := by
  induction passes with
  | start => exact bare
  | along _ walked => rw [(ensurePath_terminal? walked).1, bare]
  | behind processed _ ih =>
    refine ih (fun other mem => proper other (List.mem_cons_of_mem _ mem)) ?_
    rw [register_eq] at processed
    split at processed
    · rename_i id between walked
      obtain ⟨kept, below⟩ := ensurePath_terminal? walked
      have inside := (ensurePath_reachable settings (Trie.nonempty _) walked).2
      injection processed with _ placed
      rw [← placed, terminal?_root_place settings _ _ inside (below (proper _ List.mem_cons_self)),
        kept, bare]
    · simp at processed

end Progress

namespace CompileUnit

/-- Of commands that are placed below a root, none is registered at the root. -/
theorem registration_ne_root {commands : List (Command γ ε)} {registration : Registration γ ε}
    (mem : registration ∈ (together commands).registrations) : registration.path ≠ [] := by
  rw [registrations_eq, List.mem_map] at mem
  obtain ⟨offer, offered, rfl⟩ := mem
  exact path_ne_nil_of_together offered

/-- Whatever calls were made, and at every point of a compilation, the trie is well formed. The root
has no terminal at any point if commands are placed below it; if it is the node of a command, it has
one in the end exactly if the command has a guard or an executor. -/
theorem wellFormed_throughout (settings : Settings) (unit : CompileUnit γ ε) :
    (∀ point : Progress γ ε, Relation.ReflTransGen (Progress.Change settings) .start point →
      point.trie.WellFormed) ∧
    (∀ point, Progress.Passes settings unit.registrations .start point → point.trie.WellFormed ∧
      ∀ commands, unit = together commands → point.trie.terminal? .root = none) ∧
    ∀ trie, (unit.compile settings).result = .ok trie → trie.WellFormed ∧
      (∀ commands, unit = together commands → trie.terminal? .root = none) ∧
      ∀ command, unit = alone command →
        ((trie.terminal? .root).isSome ↔ command.guard.isSome ∨ command.executor.isSome) := by
  -- The end of a compilation is one of its points, and every point is reached by calls.
  have reached : ∀ point : Progress γ ε,
      Relation.ReflTransGen (Progress.Change settings) .start point →
        point.trie.WellFormed := fun _ reachable =>
    Progress.wellFormed_of_reachable reachable Trie.WellFormed.empty
  have passed : ∀ point, Progress.Passes settings unit.registrations .start point →
      point.trie.WellFormed ∧
        ∀ commands, unit = together commands → point.trie.terminal? .root = none := by
    intro point passes
    refine ⟨reached point passes.reachable, ?_⟩
    rintro commands rfl
    exact passes.terminal?_root (fun _ mem => registration_ne_root mem) rfl
  refine ⟨reached, passed, ?_⟩
  intro trie compiled
  obtain ⟨progress, ended, rfl⟩ := exists_run_of_compile compiled
  obtain ⟨formed, bare⟩ := passed progress (Progress.passes_of_registerAll ended)
  refine ⟨formed, bare, ?_⟩
  rintro command rfl
  rw [isSome_terminal?_root_iff compiled]
  constructor
  · rintro ⟨other, same, stands⟩
    injection same with same
    exact same ▸ stands
  · intro stands
    exact ⟨command, rfl, stands⟩

/-- The guard of `admin` stands at the root. -/
theorem sample_wellFormed : ∃ trie, (sample.compile {}).result = .ok trie ∧ trie.WellFormed ∧
    (trie.terminal? .root).isSome := by
  obtain ⟨trie, compiled⟩ := (exists_compile_eq_ok_iff {} sample).mpr ⟨by decide, by decide⟩
  obtain ⟨formed, -, root⟩ := (wellFormed_throughout {} sample).2.2 trie compiled
  exact ⟨trie, compiled, formed, (root _ rfl).mpr (Or.inl rfl)⟩

end CompileUnit

end Dispatch
