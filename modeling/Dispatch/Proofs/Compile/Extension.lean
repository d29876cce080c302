import Dispatch.Proofs.Compile.Account
import Dispatch.Proofs.Descent

/-!
# Compiling more commands

Commands that are added behind the others only extend the compiled trie: no call of a compilation moves a
node, so the nodes that were there keep their slots. A terminal that stood somewhere stays, unless the last
wins and one of the added commands claims the node; and the added commands claim nothing but nodes at or
below their own names.

Commands are added to a unit as further commands below the root, or, if it is one command, as further
subcommands of it.

## Main definitions

* `CompileUnit.extend` — a unit with further commands

## Main results

* `owner?_append_cases` — what further offers do to an owner
* `CompileUnit.extend_keeps` — further commands only extend the compiled trie
-/

set_option autoImplicit false

namespace Dispatch

open Argument

variable {γ ε : Type}

/-! ### Further offers -/

/-- Further offers leave an owner in place, unless the last wins and one of them is a claim on the path;
then the path is owned by such a claim. -/
theorem owner?_append_cases {precedence : Precedence} {path : List Argument}
    {offers : List (Offer γ ε)} {offer : Offer γ ε}
    (owns : owner? precedence path offers = some offer) (more : List (Offer γ ε)) :
    owner? precedence path (offers ++ more) = some offer ∨
      precedence = .lastWins ∧ ∃ newcomer ∈ more, newcomer.isClaim = true ∧
        SamePath path newcomer.path ∧ owner? precedence path (offers ++ more) = some newcomer := by
  induction more using List.reverseRecOn with
  | nil => exact Or.inl (by rw [List.append_nil, owns])
  | append_singleton more last ih =>
    rw [← List.append_assoc, owner?_concat]
    by_cases takes : (SamePath path last.path ∧ last.isVoid = false) ∧
        precedence = .lastWins ∧ last.isPlaceholder = false
    · obtain ⟨⟨same, proper⟩, wins, held⟩ := takes
      rw [if_pos ⟨same, proper⟩, if_pos ⟨wins, held⟩]
      exact Or.inr ⟨wins, last, by simp, Offer.isClaim_iff.mpr ⟨proper, held⟩, same, rfl⟩
    · -- Whoever owns the path before the last offer owns it still.
      have stays {owner : Offer γ ε} (before : owner? precedence path (offers ++ more) = some owner) :
          (if SamePath path last.path ∧ last.isVoid = false then
            if precedence = .lastWins ∧ last.isPlaceholder = false then some last
            else (owner? precedence path (offers ++ more)).or (some last)
          else owner? precedence path (offers ++ more)) = some owner := by
        split
        · rename_i relevant
          rw [if_neg fun both => takes ⟨relevant, both⟩, before, Option.some_or]
        · exact before
      rcases ih with kept | ⟨wins, newcomer, mem, claims, same, before⟩
      · exact Or.inl (stays kept)
      · exact Or.inr ⟨wins, newcomer, List.mem_append_left _ mem, claims, same, stays before⟩

theorem Command.offersBelow_commands_append (enclosing : List (Guard γ)) (base : List Argument)
    (commands more : List (Command γ ε)) :
    offersBelow enclosing base (commands ++ more) =
      offersBelow enclosing base commands ++ offersBelow enclosing base more := by
  induction commands with
  | nil => rfl
  | cons command rest ih => rw [List.cons_append, offersBelow, offersBelow, ih, List.append_assoc]

namespace CompileUnit

variable {unit : CompileUnit γ ε} {more : List (Command γ ε)} {settings : Settings}
  {bigger : Trie γ ε}

/-! ### Further commands -/

/-- The unit with further commands behind the others; one command gets them as subcommands. -/
def extend (more : List (Command γ ε)) : CompileUnit γ ε → CompileUnit γ ε
  | alone command => alone { command with subcommands := command.subcommands ++ more }
  | together commands => together (commands ++ more)

/-- The guards in front of further commands. -/
def enclosing : CompileUnit γ ε → List (Guard γ)
  | alone command => command.guard.toList
  | together _ => []

theorem offers_extend (unit : CompileUnit γ ε) (more : List (Command γ ε)) :
    (unit.extend more).offers = unit.offers ++ Command.offersBelow unit.enclosing [] more := by
  cases unit with
  | alone command =>
    obtain ⟨name, aliases, own, executor, usages, subcommands⟩ := command
    simp only [offers, extend, enclosing, Command.offersAt, Command.offersBelow_commands_append,
      List.nil_append, List.cons_append, List.append_assoc]
  | together commands => exact Command.offersBelow_commands_append [] [] commands more

theorem usable_of_extend (usable : (unit.extend more).Usable) : unit.Usable := by
  cases unit with
  | alone command =>
    have whole := usable _ List.mem_cons_self
    obtain ⟨named, filled, below⟩ := Command.offence?_eq_none_iff.mp whole
    intro other mem
    rw [List.mem_singleton.mp mem]
    exact Command.offence?_eq_none_iff.mpr
      ⟨named, filled, fun child isChild => below child (List.mem_append_left _ isChild)⟩
  | together commands =>
    exact fun command mem => usable command (List.mem_append_left more mem)

/-- The compilation of further commands goes on where that of the unit ends. -/
theorem exists_smaller_run (compiled : ((unit.extend more).compile settings).result = .ok bigger) :
    ∃ trie, (unit.compile settings).result = .ok trie ∧ bigger.Extends trie := by
  have usable : unit.Usable := usable_of_extend (usable_of_compile compiled)
  obtain ⟨progress, ended, rfl⟩ := exists_run_of_compile compiled
  rw [registrations_eq, offers_extend, List.map_append, ← registrations_eq,
    Progress.registerAll_append] at ended
  split at ended
  · rename_i next processed
    refine ⟨next.trie, ?_, Progress.extends_of_registerAll ended⟩
    rw [result_of_usable usable, processed]
  · simp at ended

/-- Further commands only extend the compiled trie. If they are compiled together with the others, then so
are the others by themselves; all their nodes are nodes of the bigger trie, in the same slots and at the ends
of the same paths, with the same arguments and parents, the same children in front and no terminal lost. A
terminal is that of the same offer still, unless the last wins and a further command claims the node, with an
executor of its own or by a usage; such a node lies at or below a name of the further command. -/
theorem extend_keeps (compiled : ((unit.extend more).compile settings).result = .ok bigger) :
    ∃ trie, (unit.compile settings).result = .ok trie ∧ bigger.Extends trie ∧
      (∀ path id, trie.lookup? path = some id → bigger.lookup? path = some id) ∧
      ∀ path id terminal, trie.lookup? path = some id → trie.terminal? id = some terminal →
        ∃ offer, owner? settings.precedence path unit.offers = some offer ∧
          offer.terminal? = some terminal ∧
          (owner? settings.precedence path (unit.extend more).offers = some offer ∧
              bigger.terminal? id = some terminal ∨
            settings.precedence = .lastWins ∧ ∃ command ∈ more, ∃ name ∈ command.names,
              [.literal name] <+: path ∧
              ∃ newcomer ∈ command.offersAt unit.enclosing [.literal name],
                newcomer.isClaim = true ∧ SamePath path newcomer.path ∧
                owner? settings.precedence path (unit.extend more).offers = some newcomer ∧
                bigger.terminal? id = newcomer.terminal?) := by
  obtain ⟨trie, smaller, grown⟩ := exists_smaller_run compiled
  refine ⟨trie, smaller, grown, fun _ _ => grown.lookup?_eq, ?_⟩
  intro path id terminal found stands
  -- What stands at a node is what the owner of the path offers, before and after.
  have before := terminalAt?_eq smaller path
  rw [Trie.terminalAt?, found, Option.bind_some, stands, eq_comm, Option.bind_eq_some_iff] at before
  obtain ⟨offer, owns, offered⟩ := before
  have after := terminalAt?_eq compiled path
  rw [Trie.terminalAt?, grown.lookup?_eq found, Option.bind_some] at after
  refine ⟨offer, owns, offered, ?_⟩
  rw [offers_extend] at after ⊢
  rcases owner?_append_cases owns (Command.offersBelow unit.enclosing [] more) with
    kept | ⟨wins, newcomer, mem, claims, same, takes⟩
  · refine Or.inl ⟨kept, ?_⟩
    rw [after, kept, Option.bind_some, offered]
  · obtain ⟨command, isCommand, name, named, mem⟩ := Command.mem_offersBelow.mp mem
    -- The path of the newcomer starts with the name, and a keyword is like no other argument.
    obtain ⟨rest, starts⟩ := Command.prefix_of_mem_offersAt mem
    obtain ⟨tail, whole, -⟩ := exists_eq_literal_cons (starts ▸ same.symm)
    refine Or.inr ⟨wins, command, isCommand, name, named, ⟨tail, whole.symm⟩, newcomer, mem, claims,
      same, takes, ?_⟩
    rw [after, takes, Option.bind_some]

/-- An example: a command with an executor of its own and a usage. -/
def home : CompileUnit String String :=
  .together
    [{ name := "home"
       aliases := []
       guard := none
       executor := some "go home"
       usages := [⟨[.literal "set"], some "set home", none⟩]
       subcommands := [] }]

/-- Another command of the same name, with a guard and a usage of the same arguments, and with an alias. -/
def estate : Command String String where
  name := "home"
  aliases := ["house"]
  guard := some (.single "owner")
  executor := none
  usages := [⟨[.literal "set"], some "move out", none⟩]
  subcommands := []

/-- The usage of `estate` takes the node of the other usage, as the last wins; its guard alone does not take
the node of the other executor. If the first is kept, both nodes stay as they are. The nodes of `home` come
first in both cases. -/
theorem home_extended : (∃ trie bigger, (home.compile {}).result = .ok trie ∧
      ((home.extend [estate]).compile {}).result = .ok bigger ∧ bigger.Extends trie ∧
      trie.size = 3 ∧ bigger.size = 5 ∧
      (bigger.terminalAt? [.literal "home"]).map (·.executor) = some (some "go home") ∧
      (bigger.terminalAt? [.literal "home", .literal "set"]).map (·.executor) = some (some "move out")) ∧
    ∃ bigger, ((home.extend [estate]).compile { precedence := .keepFirst }).result = .ok bigger ∧
      (bigger.terminalAt? [.literal "home", .literal "set"]).map (·.executor) =
        some (some "set home") := by
  obtain ⟨bigger, compiled⟩ :=
    (exists_compile_eq_ok_iff {} (home.extend [estate])).mpr ⟨by decide, by decide⟩
  obtain ⟨trie, smaller, grown, -, -⟩ := extend_keeps compiled
  obtain ⟨other, otherCompiled⟩ :=
    (exists_compile_eq_ok_iff { precedence := .keepFirst } (home.extend [estate])).mpr
      ⟨by decide, by decide⟩
  refine ⟨⟨trie, bigger, smaller, compiled, grown, ?_, ?_, ?_, ?_⟩, other, otherCompiled, ?_⟩
  · rw [← (numbering_of_compile smaller).length_eq]
    decide
  · rw [← (numbering_of_compile compiled).length_eq]
    decide
  · rw [terminalAt?_eq compiled]
    decide
  · rw [terminalAt?_eq compiled]
    decide
  · rw [terminalAt?_eq otherCompiled]
    decide

end CompileUnit

end Dispatch
