import Dispatch.Proofs.Compile.Unit

/-!
# Who owns a node

However the registrations of a unit follow one another, the terminal at a node is in the end that of
one offer, and which one can be read off the list of offers: the last one that is no placeholder, or
the first placeholder, or simply the first one, depending on the rule of precedence.

## Main results

* `Progress.occupant_registrations` — settling one entry after the other ends with the owner
* `CompileUnit.exists_trie_of_owners` — the terminal at the end of any path of a compiled trie
-/

set_option autoImplicit false

namespace Dispatch

open Argument Command

variable {γ ε : Type} {precedence : Precedence} {path : List Argument}

/-- An owner always offers a terminal. -/
theorem exists_terminal_of_owner {offers : List (Offer γ ε)} {offer : Offer γ ε}
    (owns : owner? precedence path offers = some offer) :
    ∃ terminal, offer.terminal? = some terminal := by
  rw [← Option.isSome_iff_exists, Offer.isSome_terminal?_iff]
  exact (mem_offersTo.mp (owner?_mem owns)).2.2

namespace Progress

theorem occupant_concat {registrations : List (Registration γ ε)} {registration : Registration γ ε}
    {before : Option (Terminal γ ε)} :
    occupant precedence path (registrations ++ [registration]) before =
      if SamePath path registration.path then
        settle precedence (occupant precedence path registrations before) registration.entry
      else occupant precedence path registrations before := by
  simp [occupant]

/-- A placeholder settles only at a node that nobody holds; whatever else is offered takes over if the
last wins. -/
theorem settle_registration (occupant : Option (Terminal γ ε)) (offer : Offer γ ε) :
    settle precedence occupant offer.registration.entry =
      if offer.isVoid = false then
        if precedence = .lastWins ∧ offer.isPlaceholder = false then offer.terminal?
        else occupant.or offer.terminal?
      else occupant := by
  cases offered : offer.terminal? with
  | none =>
    have void := Offer.terminal?_eq_none_iff.mp offered
    cases occupant <;> simp [Offer.registration, offered, void, settle]
  | some terminal =>
    have proper : offer.isVoid = false := by
      rw [← Offer.isSome_terminal?_iff, offered]
      rfl
    rw [if_pos proper, Offer.isPlaceholder_eq proper, Offer.registration, offered, Option.map_some]
    cases offer.isOwn && offer.executor.isNone
    · cases occupant <;> cases precedence <;> rfl
    · cases occupant <;> cases precedence <;> rfl

/-- Settling one entry after the other ends with the terminal of the owner. -/
theorem occupant_registrations (offers : List (Offer γ ε)) :
    occupant precedence path (offers.map Offer.registration) none =
      (owner? precedence path offers).bind Offer.terminal? := by
  -- The offers are taken from the end, as a later one may take the node from an earlier one.
  induction offers using List.reverseRecOn with
  | nil => cases precedence <;> rfl
  | append_singleton offers offer ih =>
    rw [List.map_append, List.map_singleton, occupant_concat, ih, settle_registration, owner?_concat]
    have here : offer.registration.path = offer.path := rfl
    by_cases same : SamePath path offer.path
    · by_cases proper : offer.isVoid = false
      · by_cases takes : precedence = .lastWins ∧ offer.isPlaceholder = false
        · simp [here, same, proper, takes]
        · -- The newcomer gets the node only if nobody holds it.
          rw [here, if_pos same, if_pos proper, if_neg takes, if_pos ⟨same, proper⟩, if_neg takes]
          cases owns : owner? precedence path offers with
          | none => rfl
          | some holder =>
            obtain ⟨terminal, held⟩ := exists_terminal_of_owner owns
            simp [held]
      · simp [here, same, proper]
    · simp [here, same]

end Progress

namespace CompileUnit

variable {unit : CompileUnit γ ε} {settings : Settings} {trie : Trie γ ε}

theorem terminalAt?_eq (compiled : (unit.compile settings).result = .ok trie)
    (path : List Argument) :
    trie.terminalAt? path = (owner? settings.precedence path unit.offers).bind Offer.terminal? := by
  rw [terminalAt?_of_compile compiled, registrations_eq, Progress.occupant_registrations]

/-- A terminal stands at the end of a path if and only if something is offered there. -/
theorem isSome_terminalAt?_iff (compiled : (unit.compile settings).result = .ok trie)
    {path : List Argument} :
    (trie.terminalAt? path).isSome ↔ offersTo path unit.offers ≠ [] := by
  have unowned : owner? settings.precedence path unit.offers = none ↔ offersTo path unit.offers = [] :=
    owner?_eq_none_iff
  rw [terminalAt?_eq compiled, Ne, ← unowned]
  cases owns : owner? settings.precedence path unit.offers with
  | none => simp
  | some offer =>
    obtain ⟨terminal, offered⟩ := exists_terminal_of_owner owns
    simp [offered]

/-! ### The root -/

/-- Commands that are placed below a root offer everything behind it. -/
theorem path_ne_nil_of_together {commands : List (Command γ ε)} {offer : Offer γ ε}
    (mem : offer ∈ (together commands).offers) : offer.path ≠ [] := by
  have named : offer.path ∈ Command.visitedBelow [] commands := by
    rw [← Command.path_offersBelow []]
    exact List.mem_map_of_mem mem
  exact Command.ne_nil_of_mem_visitedBelow named

/-- At the root below which commands are placed, nothing is offered. -/
theorem offersTo_nil_together (commands : List (Command γ ε)) :
    offersTo [] (together commands).offers = [] := by
  rw [List.eq_nil_iff_forall_not_mem]
  intro offer mem
  obtain ⟨mem, same, -⟩ := mem_offersTo.mp mem
  exact path_ne_nil_of_together mem (samePath_nil_left.mp same)

/-- At the root that is a command's own node, only the command itself offers something. -/
theorem offersTo_nil_alone {command : Command γ ε} (sound : command.offence? = none) :
    offersTo [] (alone command).offers =
      offersTo [] [⟨[], command.name, command.guard.toList, command.executor, true⟩] := by
  obtain ⟨rest, offered, named⟩ := command.exists_offersAt_eq_cons [] []
  -- What the command offers besides lies behind the root.
  have elsewhere : offersTo [] rest = [] := by
    rw [List.eq_nil_iff_forall_not_mem]
    intro offer mem
    obtain ⟨mem, same, -⟩ := mem_offersTo.mp mem
    have path : offer.path ∈ command.visitedAt [] := named ▸ List.mem_map_of_mem mem
    exact ne_nil_of_mem_visitedAt sound path (samePath_nil_left.mp same)
  rw [offers, offered, ← List.singleton_append, offersTo, List.filter_append]
  rw [offersTo] at elsewhere
  rw [elsewhere, List.append_nil]
  rfl

/-- The root has a terminal exactly if it is the node of a command with a guard or an executor. -/
theorem isSome_terminal?_root_iff (compiled : (unit.compile settings).result = .ok trie) :
    (trie.terminal? .root).isSome ↔
      ∃ command, unit = alone command ∧ (command.guard.isSome ∨ command.executor.isSome) := by
  have settled : (trie.terminal? .root).isSome ↔ offersTo [] unit.offers ≠ [] := by
    rw [← isSome_terminalAt?_iff compiled]
    rfl
  rw [settled]
  cases unit with
  | together commands => simp [offersTo_nil_together]
  | alone command =>
    have sound : command.offence? = none := usable_of_compile compiled command List.mem_cons_self
    rw [offersTo_nil_alone sound]
    cases guarded : command.guard <;> cases runs : command.executor <;>
      simp [offersTo, Offer.isVoid, guarded, runs]

/-- Usable commands that fit into an arena are compiled, and the terminal at the end of every path is
that of the offer that owns it by the rule of precedence. -/
theorem exists_trie_of_owners (settings : Settings) (unit : CompileUnit γ ε)
    (usable : unit.Usable) (fits : unit.nodeCount ≤ NodeId.capacity) :
    ∃ trie, (unit.compile settings).result = .ok trie ∧ ∀ path, trie.terminalAt? path =
      (owner? settings.precedence path unit.offers).bind Offer.terminal? := by
  obtain ⟨trie, compiled⟩ := (exists_compile_eq_ok_iff settings unit).mpr ⟨usable, fits⟩
  exact ⟨trie, compiled, terminalAt?_eq compiled⟩

/-- A later executor takes the node `stop`; the mere guard of a subcommand does not take the node
`reload`, but it fills the node of the alias. -/
theorem sample_owners : sample.Usable ∧ sample.nodeCount ≤ NodeId.capacity ∧
    ∃ trie, (sample.compile {}).result = .ok trie ∧
      ((trie.terminalAt? [.literal "stop"]).map (·.executor) = some (some "stop now") ∧
        (trie.terminalAt? [.literal "reload"]).map (·.executor) = some (some "reload all") ∧
        (trie.terminalAt? [.literal "r"]).map (·.executor) = some none) := by
  obtain ⟨trie, compiled, terminals⟩ :=
    exists_trie_of_owners {} sample (by decide) (by decide)
  refine ⟨by decide, by decide, trie, compiled, ?_⟩
  rw [terminals, terminals, terminals]
  decide

end CompileUnit

end Dispatch
