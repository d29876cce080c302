import Dispatch.Proofs.Compile.Ownership
import Dispatch.Proofs.Guard.Execution

/-!
# The guards in front of a compiled terminal

A terminal of a compiled trie asks the guards of the command tree that lie on the way to its owner:
those of the enclosing commands from the outermost to the innermost, and then that of the usage.

## Main results

* `CompileUnit.exists_owner_of_terminal` — every terminal belongs to an owner
* `CompileUnit.terminal_enforces_owner` — it enforces the guards of its owner
-/

set_option autoImplicit false

namespace Dispatch.CompileUnit

variable {γ ε : Type} {unit : CompileUnit γ ε} {settings : Settings} {trie : Trie γ ε}
  {id : NodeId} {terminal : Terminal γ ε}

/-- Every terminal of a compiled trie is that of one offer, which owns each path to its node. -/
theorem exists_owner_of_terminal (compiled : (unit.compile settings).result = .ok trie)
    (stored : trie.terminal? id = some terminal) :
    ∃ offer, (∃ path, trie.lookup? path = some id) ∧
      (∀ path, trie.lookup? path = some id →
        owner? settings.precedence path unit.offers = some offer) ∧
      offer.terminal? = some terminal := by
  have numbered := numbering_of_compile compiled
  obtain ⟨path, found⟩ := numbered.exists_lookup? (Trie.lt_size_of_terminal? stored)
  have settled := terminalAt?_eq compiled path
  rw [Trie.terminalAt?, found, Option.bind_some, stored, eq_comm, Option.bind_eq_some_iff] at settled
  obtain ⟨offer, owns, offered⟩ := settled
  refine ⟨offer, ⟨path, found⟩, ?_, offered⟩
  -- The paths to a node differ in descriptions only, so all of them have the same owner.
  intro other leads
  rw [owner?_congr ((numbered.leads_iff found other).mp leads)]
  exact owns

/-- A terminal of a compiled trie enforces the guards of its owner in front of the executor of its
owner. It has no guard if there are none, the only one itself if there is one, and a composed guard
otherwise. -/
theorem terminal_enforces_owner (compiled : (unit.compile settings).result = .ok trie)
    (stored : trie.terminal? id = some terminal) :
    ∃ offer, (∃ path, trie.lookup? path = some id) ∧
      (∀ path, trie.lookup? path = some id →
        owner? settings.precedence path unit.offers = some offer) ∧
      (terminal.guard = none ↔ offer.guards = []) ∧
      (∀ guard, offer.guards = [guard] → terminal.guard = some guard) ∧
      (2 ≤ offer.guards.length → ∃ first second, terminal.guard = some (.both first second)) ∧
      terminal.Enforces offer.guards offer.executor := by
  obtain ⟨offer, reached, owns, offered⟩ := exists_owner_of_terminal compiled stored
  obtain ⟨joined, executor⟩ := Terminal.of?_eq_some_iff.mp offered
  refine ⟨offer, reached, owns, ?_, ?_, ?_, ?_⟩
  · rw [joined, Guard.joinAll_eq_none_iff]
  · intro guard only
    rw [joined, only, Guard.joinAll_singleton]
  · intro several
    rw [joined]
    exact Guard.exists_joinAll_eq_both several
  · rw [← executor]
    exact Terminal.enforces_of_joinAll joined

/-- Whoever reloads one thing is asked for by the guard of `admin` and then by that of `reload`. -/
theorem sample_reload_enforces : ∃ trie id terminal,
    (sample.compile {}).result = .ok trie ∧ trie.terminal? id = some terminal ∧
      trie.lookup? [.literal "reload", .typed "what" .word none] = some id ∧
      (∃ first second, terminal.guard = some (.both first second)) ∧
      terminal.Enforces [.single "staff", .single "owner"] (some "reload one") := by
  obtain ⟨trie, compiled⟩ := (exists_compile_eq_ok_iff {} sample).mpr ⟨by decide, by decide⟩
  have held : (trie.terminalAt? [.literal "reload", .typed "what" .word none]).isSome := by
    rw [terminalAt?_eq compiled]
    decide
  obtain ⟨terminal, atEnd⟩ := Option.isSome_iff_exists.mp held
  obtain ⟨id, found, stored⟩ := Option.bind_eq_some_iff.mp atEnd
  obtain ⟨offer, -, owns, -, -, composed, enforced⟩ := terminal_enforces_owner compiled stored
  obtain rfl : _ = offer := Option.some_inj.mp (owns _ found)
  exact ⟨trie, id, terminal, compiled, stored, found, composed (by decide), enforced⟩

end Dispatch.CompileUnit
