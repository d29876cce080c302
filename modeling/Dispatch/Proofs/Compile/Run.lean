import Dispatch.Proofs.Guard.Chain
import Dispatch.Proofs.Trie.Numbering
import Dispatch.Trie.Compile

/-!
# What a compilation reaches

A compilation processes registrations one after the other. It enters the beginnings of their paths
into the numbering of the trie, and at the end of each path it lets the entry of the registration and
the terminal that stands there settle which of them stays. It fails exactly if the paths that it
enters are more than an arena has slots.

## Main definitions

* `Progress.settle` — which terminal stands at a node once an entry came to it
* `Progress.occupant` — which terminal stands at a path once some registrations were processed
* `Progress.Reaches` — how a step ends that enters paths

## Main results

* `Progress.ensureChild_reaches`, `Progress.ensurePath_reaches`, `Progress.registerAll_reaches` —
  the paths that each of the loops enters, and what it makes of the terminals
-/

set_option autoImplicit false

namespace Dispatch.Progress

open Argument

variable {γ ε : Type} {progress after : Progress γ ε} {start parent id : NodeId} {argument : Argument}
  {path base : List Argument} {paths : List (List Argument)} {settings : Settings}
  {registration : Registration γ ε} {registrations : List (Registration γ ε)}

/-! ### One step of each loop -/

/-- The child of a node is found, or it is appended as long as there is a free slot. -/
theorem ensureChild_eq :
    ensureChild parent argument progress =
      match progress.trie.findChild? parent argument with
      | some id => .ok id progress
      | none =>
        if fits : progress.trie.size < NodeId.capacity then
          .ok ⟨progress.trie.size, fits⟩
            { progress with
              trie := progress.trie.insertChild parent argument ⟨progress.trie.size, fits⟩ rfl
              log := progress.log.push (.createdNode parent ⟨progress.trie.size, fits⟩ argument) }
        else .error (.capacityExceeded progress.trie.size) progress := by
  unfold ensureChild
  cases progress.trie.findChild? parent argument with
  | some id => rfl
  | none =>
    dsimp only
    by_cases fits : progress.trie.size < NodeId.capacity
    · rw [dif_pos fits]
      split
      · rename_i id free
        obtain rfl := Option.some.inj ((NodeId.ofIndex?_of_lt fits).symm.trans free)
        rfl
      · rename_i full
        simp [NodeId.ofIndex?_of_lt fits] at full
    · rw [dif_neg fits]
      split
      · rename_i id free
        simp [NodeId.ofIndex?_of_le (Nat.not_lt.mp fits)] at free
      · rfl

theorem ensurePath_cons :
    ensurePath start (argument :: path) progress =
      match ensureChild start argument progress with
      | .ok id next => ensurePath id path next
      | .error error next => .error error next := by
  rw [ensurePath, List.foldlM_cons, bind_apply]
  cases ensureChild start argument progress <;> rfl

theorem register_eq :
    register settings registration progress =
      match ensurePath NodeId.root registration.path progress with
      | .ok id next => .ok () (place settings registration.command id registration.entry next)
      | .error error next => .error error next := by
  rw [register, bind_apply]
  cases ensurePath NodeId.root registration.path progress <;> rfl

theorem registerAll_cons :
    registerAll settings (registration :: registrations) progress =
      match register settings registration progress with
      | .ok () next => registerAll settings registrations next
      | .error error next => .error error next := by
  change (register settings registration >>= fun _ => registerAll settings registrations) progress = _
  rw [bind_apply]
  cases register settings registration progress <;> rfl

/-- A child is found where it is, or appended behind all nodes, and only the appending is reported. -/
theorem ensureChild_records (ensured : ensureChild parent argument progress = .ok id after) :
    progress.trie.findChild? parent argument = some id ∧ after = progress ∨
      progress.trie.findChild? parent argument = none ∧
        ∃ free : id.index = progress.trie.size, after =
          { progress with
            trie := progress.trie.insertChild parent argument id free
            log := progress.log.push (.createdNode parent id argument) } := by
  rw [ensureChild_eq] at ensured
  split at ensured
  · rename_i present
    injection ensured with same unchanged
    exact Or.inl ⟨same ▸ present, unchanged.symm⟩
  · rename_i absent
    split at ensured
    · injection ensured with same changed
      subst same changed
      exact Or.inr ⟨absent, rfl, rfl⟩
    · exact absurd ensured (by simp)

/-- The trie stays as it is, or the child is appended to it. -/
theorem ensureChild_cases (ensured : ensureChild parent argument progress = .ok id after) :
    progress.trie.findChild? parent argument = some id ∧ after = progress ∨
      progress.trie.findChild? parent argument = none ∧
        ∃ free : id.index = progress.trie.size,
          after.trie = progress.trie.insertChild parent argument id free := by
  rcases ensureChild_records ensured with found | ⟨absent, free, rfl⟩
  · exact Or.inl found
  · exact Or.inr ⟨absent, free, rfl⟩

/-- The child is a node of the trie that was reached. -/
theorem ensureChild_valid (ensured : ensureChild parent argument progress = .ok id after) :
    id.index < after.trie.size := by
  rcases ensureChild_cases ensured with ⟨present, rfl⟩ | ⟨-, free, appended⟩
  · exact (after.trie.children_descend (Trie.findChild?_mem present)).2
  · rw [appended, Trie.size_insertChild, free]
    exact Nat.lt_succ_self _

/-! ### What stays at a node -/

/-- Which terminal stands at a node once an entry came to it. -/
def settle (precedence : Precedence) : Option (Terminal γ ε) → Option (Entry γ ε) →
    Option (Terminal γ ε)
  | occupant, none => occupant
  | none, some (.terminal newcomer) => some newcomer
  | none, some (.placeholder newcomer) => some newcomer
  | some occupant, some (.placeholder _) => some occupant
  | some occupant, some (.terminal newcomer) =>
    match precedence with
    | .lastWins => some newcomer
    | .keepFirst => some occupant

/-- Which terminal stands at a path once some registrations were processed, given the one that stood
there before. -/
def occupant (precedence : Precedence) (path : List Argument)
    (registrations : List (Registration γ ε)) (before : Option (Terminal γ ε)) :
    Option (Terminal γ ε) :=
  registrations.foldl (fun standing registration =>
    if SamePath path registration.path then settle precedence standing registration.entry
    else standing) before

/-! ### What each loop reaches -/

/-- How a step ends that enters paths: it succeeds with the numbering by these paths and whatever else
is claimed of it, or they are more than an arena has slots. -/
def Reaches {α : Type} (paths : List (List Argument)) (claimed : α → Progress γ ε → Prop) :
    EStateM.Result CompileError (Progress γ ε) α → Prop
  | .ok a progress => progress.trie.Numbering paths ∧ claimed a progress
  | .error _ _ => NodeId.capacity < paths.length

theorem ensureChild_reaches (numbered : progress.trie.Numbering paths)
    (found : progress.trie.lookup? base = some parent) :
    Reaches (enter paths (base ++ [argument]))
      (fun id after => after.trie.lookup? (base ++ [argument]) = some id ∧
        ∀ path, after.trie.terminalAt? path = progress.trie.terminalAt? path)
      (ensureChild parent argument progress) := by
  rw [ensureChild_eq]
  split
  · -- The child exists, so its path is known and nothing is entered.
    rename_i id present
    have known : Known paths (base ++ [argument]) := by
      rw [numbered.known_concat_iff found, present]
      rfl
    refine ⟨?_, ?_, fun _ => rfl⟩
    · rw [enter, if_pos known]
      exact numbered
    · rw [Trie.lookup?_concat, found]
      exact present
  · rename_i absent
    split
    · -- The child is new, and its path is entered behind the others.
      rename_i fits
      refine ⟨numbered.insertChild found absent rfl, ?_, ?_⟩
      · rw [Trie.lookup?_insertChild rfl (numbered.leads_iff found) absent,
          if_pos (SamePath.refl _)]
      · exact Trie.terminalAt?_insertChild rfl (numbered.leads_iff found) absent
    · -- The path would have been entered too, and then there are more paths than slots.
      rename_i full
      have unknown : ¬ Known paths (base ++ [argument]) := by
        rw [numbered.known_concat_iff found, absent]
        exact Bool.false_ne_true
      have := numbered.length_eq
      simp only [Reaches, enter, if_neg unknown, List.length_append, List.length_singleton]
      omega

theorem ensurePath_reaches (numbered : progress.trie.Numbering paths)
    (found : progress.trie.lookup? base = some start) (path : List Argument) :
    Reaches (enterAll paths ((beginnings path).map (base ++ ·)))
      (fun id after => after.trie.lookup? (base ++ path) = some id ∧
        ∀ other, after.trie.terminalAt? other = progress.trie.terminalAt? other)
      (ensurePath start path progress) := by
  -- The path walked so far moves from `path` to `base`.
  induction path generalizing progress start base paths with
  | nil => exact ⟨numbered, by simpa using found, fun _ => rfl⟩
  | cons argument path ih =>
    -- The first beginning is the path of the child, and the others start with it.
    have shift : (beginnings (argument :: path)).map (base ++ ·) =
        (base ++ [argument]) :: (beginnings path).map (base ++ [argument] ++ ·) := by
      simp [beginnings_cons, Function.comp_def]
    have step : Reaches (enter paths (base ++ [argument])) _ (ensureChild start argument progress) :=
      ensureChild_reaches numbered found
    rw [shift, enterAll_cons, ensurePath_cons]
    split
    · rename_i id next done
      rw [done] at step
      obtain ⟨numbered', found', kept⟩ := step
      have rest := ih numbered' found'
      simp only [kept, List.append_assoc, List.singleton_append] at rest
      simpa using rest
    · rename_i error next failed
      rw [failed] at step
      exact lt_of_lt_of_le step length_le_enterAll

/-- An entry either leaves the trie as it is or puts a terminal at the node; in both cases the
terminal that is settled on stands there. -/
theorem trie_place (settings : Settings) (command : String) (id : NodeId)
    (entry : Option (Entry γ ε)) (progress : Progress γ ε) :
    (place settings command id entry progress).trie = progress.trie ∧
        settle settings.precedence (progress.trie.terminal? id) entry = progress.trie.terminal? id ∨
      ∃ terminal, (place settings command id entry progress).trie =
          progress.trie.setTerminal id terminal ∧
        settle settings.precedence (progress.trie.terminal? id) entry = some terminal := by
  rcases entry with _ | newcomer | newcomer
  · exact Or.inl ⟨rfl, rfl⟩
  · simp only [place, putTerminal]
    cases progress.trie.terminal? id with
    | none => exact Or.inr ⟨newcomer, rfl, rfl⟩
    | some occupant =>
      cases settings.precedence with
      | lastWins => exact Or.inr ⟨newcomer, rfl, rfl⟩
      | keepFirst => exact Or.inl ⟨rfl, rfl⟩
  · simp only [place, putPlaceholder]
    cases progress.trie.terminal? id with
    | none => exact Or.inr ⟨newcomer, rfl, rfl⟩
    | some occupant => exact Or.inl ⟨rfl, rfl⟩

/-- Placing an entry changes nothing, or it fills an empty node, or it comes to a filled one, where either
terminal may stay and the other one is reported. -/
theorem place_records (settings : Settings) (command : String) (id : NodeId)
    (entry : Option (Entry γ ε)) (progress : Progress γ ε) :
    place settings command id entry progress = progress ∨
      (∃ terminal, progress.trie.terminal? id = none ∧
        place settings command id entry progress =
          { progress with
            trie := progress.trie.setTerminal id terminal
            terminals := progress.terminals + 1 }) ∨
      ∃ trie, (progress.trie.terminal? id).isSome ∧
        (trie = progress.trie ∨ ∃ terminal, trie = progress.trie.setTerminal id terminal) ∧
        place settings command id entry progress =
          { progress with
            trie := trie
            log := progress.log.push
              (.duplicateTerminal settings.warnOnDuplicate command id settings.precedence) } := by
  rcases entry with _ | newcomer | newcomer
  · exact Or.inl rfl
  · simp only [place, putTerminal]
    cases progress.trie.terminal? id with
    | none => exact Or.inr (Or.inl ⟨newcomer, rfl, rfl⟩)
    | some occupant =>
      refine Or.inr (Or.inr ⟨_, rfl, ?_, rfl⟩)
      cases settings.precedence with
      | lastWins => exact Or.inr ⟨newcomer, rfl⟩
      | keepFirst => exact Or.inl rfl
  · simp only [place, putPlaceholder]
    cases progress.trie.terminal? id with
    | none => exact Or.inr (Or.inl ⟨newcomer, rfl, rfl⟩)
    | some occupant => exact Or.inl rfl

theorem terminalAt?_place (entry : Option (Entry γ ε)) (command : String)
    (leads : ∀ path, progress.trie.lookup? path = some id ↔ SamePath path base)
    (path : List Argument) :
    (place settings command id entry progress).trie.terminalAt? path =
      if SamePath path base then settle settings.precedence (progress.trie.terminalAt? path) entry
      else progress.trie.terminalAt? path := by
  have standing (here : SamePath path base) :
      progress.trie.terminalAt? path = progress.trie.terminal? id := by
    rw [Trie.terminalAt?, (leads path).mpr here]
    rfl
  rcases trie_place settings command id entry progress with ⟨same, settled⟩ | ⟨terminal, put, settled⟩
  · rw [same]
    split
    · rename_i here
      rw [standing here, settled]
    · rfl
  · rw [put, Trie.terminalAt?_setTerminal leads]
    split
    · rename_i here
      rw [standing here, settled]
    · rfl

theorem numbering_place (numbered : progress.trie.Numbering paths) (entry : Option (Entry γ ε))
    (command : String) :
    (place settings command id entry progress).trie.Numbering paths := by
  rcases trie_place settings command id entry progress with ⟨same, -⟩ | ⟨terminal, put, -⟩
  · rw [same]
    exact numbered
  · rw [put]
    exact numbered.setTerminal terminal

theorem register_reaches (numbered : progress.trie.Numbering paths)
    (settings : Settings) (registration : Registration γ ε) :
    Reaches (enterAll paths (beginnings registration.path))
      (fun _ after => ∀ path, after.trie.terminalAt? path =
        occupant settings.precedence path [registration] (progress.trie.terminalAt? path))
      (register settings registration progress) := by
  have walk := ensurePath_reaches numbered Trie.lookup?_nil registration.path
  simp only [List.nil_append, List.map_id'] at walk
  rw [register_eq]
  split
  · rename_i id next done
    rw [done] at walk
    obtain ⟨numbered', found, kept⟩ := walk
    refine ⟨numbering_place numbered' _ _, fun path => ?_⟩
    rw [terminalAt?_place _ _ (numbered'.leads_iff found), kept]
    rfl
  · rename_i error next failed
    rw [failed] at walk
    exact walk

theorem registerAll_reaches (numbered : progress.trie.Numbering paths)
    (settings : Settings) (registrations : List (Registration γ ε)) :
    Reaches (enterAll paths (registrations.flatMap fun r => beginnings r.path))
      (fun _ after => ∀ path, after.trie.terminalAt? path =
        occupant settings.precedence path registrations (progress.trie.terminalAt? path))
      (registerAll settings registrations progress) := by
  induction registrations generalizing progress paths with
  | nil => exact ⟨numbered, fun _ => rfl⟩
  | cons registration registrations ih =>
    have step := register_reaches numbered settings registration
    rw [List.flatMap_cons, enterAll_append, registerAll_cons]
    split
    · rename_i next done
      rw [done] at step
      obtain ⟨numbered', settled⟩ := step
      have rest := ih numbered'
      simp only [settled] at rest
      exact rest
    · rename_i error next failed
      rw [failed] at step
      exact lt_of_lt_of_le step length_le_enterAll

end Dispatch.Progress
