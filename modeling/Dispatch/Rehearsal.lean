import Dispatch.Terminal

/-!
# Rehearsals

Scripted guards and executors for trying out a trie: a guard answers by a simple rule, an executor
only lets itself be seen, and every call is recorded. Each scripted guard is an object of its own
with a serial number, so it can be told whether two places hold the same guard. It keeps its name,
even when another guard is given the same one.

## Main definitions

* `Script` — the rule by which a guard answers
* `ScriptedGuard` — a guard with its identity and its name
* `ScriptedGuard.chain` — two guards kept as one object
* `Stage` — the calls so far
* `Rehearsal.handlers` — what scripted guards and executors do
-/

set_option autoImplicit false

namespace Dispatch

/-- The rule by which a guard answers. -/
inductive Script where
  | always
  | never
  /-- the sender holds a permission -/
  | permission (name : String)
  /-- one answer after the other, again from the start at the end -/
  | sequence (answers : List Bool)
  /-- the sender has a name -/
  | sender (name : String)
  /-- an argument has a raw text, or is absent -/
  | argument (name : String) (raw : Option String)
  /-- the input is a text -/
  | input (text : String)
  /-- it panics -/
  | panic (message : String)
deriving DecidableEq

/-- A rule under the name and the serial number of its guard. -/
structure Cue where
  serial : Nat
  name : String
  script : Script
deriving DecidableEq

/-- A guard with its identity and its name. It asks its cues in order until one denies. -/
structure ScriptedGuard where
  serial : Nat
  name : String
  cues : List Cue
deriving DecidableEq

namespace ScriptedGuard

/-- A guard with a rule of its own. -/
def ofScript (serial : Nat) (name : String) (script : Script) : ScriptedGuard :=
  ⟨serial, name, [⟨serial, name, script⟩]⟩

/-- A guard that asks what another guard asks. -/
def chain (serial : Nat) (name : String) (guard : Guard ScriptedGuard) : ScriptedGuard :=
  ⟨serial, name, guard.leaves.flatMap ScriptedGuard.cues⟩

end ScriptedGuard

/-- A call of a guard or of an executor. -/
inductive Call where
  | guard (name : String)
  | executor (label sender input : String) (arguments : List (String × String))
deriving DecidableEq

/-- The calls so far, and how often each guard was asked. -/
structure Stage where
  calls : Array Call
  asked : List (Nat × Nat)

namespace Stage

/-- The stage before any call. -/
def empty : Stage := ⟨#[], []⟩

/-- How often a guard was asked. -/
def count (stage : Stage) (serial : Nat) : Nat := (stage.asked.lookup serial).getD 0

/-- Records that a guard is asked. -/
def ask (cue : Cue) (stage : Stage) : Stage :=
  { calls := stage.calls.push (.guard cue.name)
    asked := (cue.serial, stage.count cue.serial + 1) ::
      stage.asked.filter fun entry => entry.1 ≠ cue.serial }

end Stage

namespace Rehearsal

/-- The answer of a rule; `count` is the number of earlier questions. -/
def answer (count : Nat) (invocation : Invocation) : Script → Except Panic Bool
  | .always => .ok true
  | .never => .ok false
  | .permission name => .ok (invocation.sender.holds name)
  | .sequence answers => .ok (answers.getD (count % answers.length) false)
  | .sender name => .ok (invocation.sender.name == name)
  | .argument name raw => .ok (invocation.argument? name == raw)
  | .input text => .ok (invocation.input == text)
  | .panic message => .error ⟨message⟩

/-- Asks one cue. The call is recorded before the answer. -/
def askCue (cue : Cue) (invocation : Invocation) : Action Stage Bool := do
  let stage ← get
  set (stage.ask cue)
  match answer (stage.count cue.serial) invocation cue.script with
  | .ok permitted => return permitted
  | .error panic => throw panic

/-- Asks cues in order until one denies. -/
def askAll (invocation : Invocation) : List Cue → Action Stage Bool
  | [] => return true
  | cue :: rest => do
    if ← askCue cue invocation then askAll invocation rest else return false

/-- Whether an executor of this label panics. -/
def panics (label : String) : Bool := "panic".toList.isPrefixOf label.toList

/-- What scripted guards and executors do. An executor records its call, and then panics if its
label says so. -/
def handlers : Handlers ScriptedGuard String Stage where
  ask guard invocation := askAll invocation guard.cues
  run label invocation := do
    modify fun stage =>
      { stage with
        calls := stage.calls.push
          (.executor label invocation.sender.name invocation.input invocation.arguments) }
    if panics label then throw ⟨"executor exploded: " ++ label⟩

end Rehearsal

end Dispatch
