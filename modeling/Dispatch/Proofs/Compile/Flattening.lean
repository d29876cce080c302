import Dispatch.Proofs.Compile.Ownership
import Dispatch.Proofs.Compile.Spelling
import Dispatch.Proofs.Flatten
import Dispatch.Proofs.Guard.Execution

/-!
# Compiling commands without subcommands

A command and its flat form are compiled to tries that cannot be told apart: they have the same nodes
in the same slots, and at each node terminals that behave alike or none. The guards are the only thing
that may differ, and only in how they are bracketed.

## Main definitions

* `Trie.Alike` — two tries have the same nodes, and terminals that behave alike

## Main results

* `CompileUnit.alike_of_plain_offers` — offers that are plainly the same are compiled alike
* `CompileUnit.flatten_alike` — so are a command and its flat form
-/

set_option autoImplicit false

namespace Dispatch

open Argument

variable {γ ε : Type}

/-- Two tries have the same nodes in the same slots, and terminals that behave alike. -/
structure Trie.Alike (trie other : Trie γ ε) : Prop where
  size_eq : trie.size = other.size
  argument?_eq : ∀ id, trie.argument? id = other.argument? id
  children_eq : ∀ id, trie.children id = other.children id
  /-- both have terminals that behave alike at a node, or neither has one there -/
  terminals_alike : ∀ id, Option.Rel Terminal.Alike (trie.terminal? id) (other.terminal? id)

/-- Offers that are plainly the same are made good on by terminals that behave alike. -/
theorem Offer.terminals_alike {offer other : Offer γ ε} (same : offer.plain = other.plain) :
    Option.Rel Terminal.Alike offer.terminal? other.terminal? := by
  obtain ⟨-, leaves, executor, -⟩ := Offer.plain_eq_iff.mp same
  rw [Offer.terminal?, Offer.terminal?, executor]
  refine Terminal.of?_alike other.executor ?_
  rw [Guard.leaves?_joinAll, Guard.leaves?_joinAll, leaves]

/-- If offers are plainly the same, then so are those that own the end of a path. -/
theorem owners_alike {precedence : Precedence} {offers others : List (Offer γ ε)}
    (same : offers.map Offer.plain = others.map Offer.plain) (path : List Argument) :
    Option.Rel Terminal.Alike ((owner? precedence path offers).bind Offer.terminal?)
      ((owner? precedence path others).bind Offer.terminal?) := by
  have plainly (offers : List (Offer γ ε)) : owner? precedence path (offers.map Offer.plain) =
      (owner? precedence path offers).map Offer.plain :=
    owner?_map (fun _ _ => Iff.rfl) Offer.isVoid_plain Offer.isPlaceholder_plain
  have owners : (owner? precedence path offers).map Offer.plain =
      (owner? precedence path others).map Offer.plain := by
    rw [← plainly, ← plainly, same]
  cases owns : owner? precedence path offers with
  | none =>
    rw [owns, Option.map_none, eq_comm, Option.map_eq_none_iff] at owners
    rw [owners]
    exact .none
  | some offer =>
    rw [owns, Option.map_some, eq_comm, Option.map_eq_some_iff] at owners
    obtain ⟨other, owns', plain⟩ := owners
    rw [owns']
    exact Offer.terminals_alike plain.symm

namespace CompileUnit

variable {unit other : CompileUnit γ ε} {settings : Settings} {trie otherTrie : Trie γ ε}

/-- Offers that are plainly the same stand at the same paths, so they take the same nodes. -/
theorem paths_eq_of_plain_offers
    (same : unit.offers.map Offer.plain = other.offers.map Offer.plain) : unit.paths = other.paths := by
  have standAt (offers : List (Offer γ ε)) :
      offers.map Offer.path = (offers.map Offer.plain).map Offer.path := by
    rw [List.map_map]
    rfl
  rw [paths_eq, paths_eq, standAt unit.offers, same, ← standAt]

/-- Units whose offers are plainly the same are compiled to tries that are alike. -/
theorem alike_of_plain_offers (same : unit.offers.map Offer.plain = other.offers.map Offer.plain)
    (compiled : (unit.compile settings).result = .ok trie)
    (otherCompiled : (other.compile settings).result = .ok otherTrie) : trie.Alike otherTrie := by
  obtain ⟨size, arguments, children, lookups⟩ := sameNodes_of_paths_eq
    (paths_eq_of_plain_offers same) compiled otherCompiled
  refine ⟨size, arguments, children, ?_⟩
  intro id
  by_cases valid : id.index < trie.size
  · obtain ⟨path, leads⟩ := (numbering_of_compile compiled).exists_lookup? valid
    have here : trie.terminalAt? path = trie.terminal? id := by
      rw [Trie.terminalAt?, leads, Option.bind_some]
    have there : otherTrie.terminalAt? path = otherTrie.terminal? id := by
      rw [Trie.terminalAt?, ← lookups, leads, Option.bind_some]
    rw [← here, ← there, terminalAt?_eq compiled, terminalAt?_eq otherCompiled]
    exact owners_alike same path
  · rw [Trie.terminal?_eq_none (not_lt.mp valid), Trie.terminal?_eq_none (size ▸ not_lt.mp valid)]
    exact .none

/-- A command is compiled alike whether its subcommands are kept or usages stand in their place, unless
one of them only holds its place by guards. -/
theorem flatten_alike {command : Command γ ε}
    (compiled : ((alone command).compile settings).result = .ok trie)
    (placed : command.NoHolderBelow []) :
    ∃ flat, ((alone command.flatten).compile settings).result = .ok flat ∧ trie.Alike flat := by
  obtain ⟨usable, fits⟩ := (exists_compile_eq_ok_iff settings _).mp ⟨trie, compiled⟩
  have same : (alone command.flatten).offers.map Offer.plain = (alone command).offers.map Offer.plain :=
    command.plain_offersAt_flatten placed
  have flatUsable : (alone command.flatten).Usable := by
    intro other mem
    rw [List.mem_singleton.mp mem]
    exact Command.offence?_flatten (usable command (List.mem_singleton_self command))
  -- The same paths take the same number of nodes.
  have flatFits : (alone command.flatten).nodeCount ≤ NodeId.capacity := by
    rw [← length_paths, paths_eq_of_plain_offers same, length_paths]
    exact fits
  obtain ⟨flat, flatCompiled⟩ := (exists_compile_eq_ok_iff settings _).mpr ⟨flatUsable, flatFits⟩
  exact ⟨flat, flatCompiled, alike_of_plain_offers same.symm compiled flatCompiled⟩

/-- An example: a subcommand with an executor, an alias and a guarded usage stands beside a usage that
meets it. -/
def team : Command String String where
  name := "team"
  aliases := []
  guard := some (.single "member")
  executor := none
  usages := [⟨[.literal "add"], some "add anyone", none⟩]
  subcommands :=
    [{ name := "add"
       aliases := ["a"]
       guard := some (.single "owner")
       executor := some "add nobody"
       usages := [⟨[.typed "who" .player none], some "add one", some (.single "online")⟩]
       subcommands := [] }]

/-- The flat form of `team` is compiled alike. Where three guards meet, they are bracketed in another
way. -/
theorem team_alike : ∃ trie flat, ((alone team).compile {}).result = .ok trie ∧
    ((alone team.flatten).compile {}).result = .ok flat ∧ trie.Alike flat ∧
    (trie.terminalAt? [.literal "a", .typed "who" .player none]).map (·.guard) =
      some (some (.both (.both (.single "member") (.single "owner")) (.single "online"))) ∧
    (flat.terminalAt? [.literal "a", .typed "who" .player none]).map (·.guard) =
      some (some (.both (.single "member") (.both (.single "owner") (.single "online")))) := by
  obtain ⟨trie, compiled⟩ :=
    (exists_compile_eq_ok_iff {} (alone team)).mpr ⟨by decide, by decide⟩
  have placed : team.NoHolderBelow [] := by
    simp [team, Command.NoHolderBelow, Command.NoHolderAmong]
  obtain ⟨flat, flatCompiled, alike⟩ := flatten_alike compiled placed
  refine ⟨trie, flat, compiled, flatCompiled, alike, ?_, ?_⟩
  · rw [terminalAt?_eq compiled]
    decide
  · rw [terminalAt?_eq flatCompiled]
    decide

end CompileUnit

end Dispatch
