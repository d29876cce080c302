import Dispatch.Settings
import Dispatch.Text.Quoted
import Dispatch.Trie.Basic

/-!
# Events

What a compilation, the loading of a manifest or the run of a declared command reports. An event has
a level, a message, named fields and a target, which is the part of the program that reports it. A
directive selects events by target and level, and an event can be written as one line of a log.

## Main definitions

* `Event` — the things that are reported
* `Event.level`, `Event.message`, `Event.fields`, `Event.target` — its parts
* `Directive`, `Directive.admits` — which events are shown
* `Event.line` — a line for it in a log
-/

set_option autoImplicit false

namespace Dispatch

/-- How important an event is. -/
inductive Level where
  | trace
  | debug
  | info
  | warn
deriving DecidableEq, Repr

namespace Level

/-- The name of a level. -/
def name : Level → String
  | trace => "TRACE"
  | debug => "DEBUG"
  | info => "INFO"
  | warn => "WARN"

/-- The place of a level in the order of importance. -/
def rank : Level → Nat
  | trace => 0
  | debug => 1
  | info => 2
  | warn => 3

end Level

/-- Something that is reported. -/
inductive Event where
  /-- a node was appended to the arena -/
  | createdNode (parent child : NodeId) (argument : Argument)
  /-- a command registered a terminal where one stood already -/
  | duplicateTerminal (isWarning : Bool) (command : String) (node : NodeId)
      (precedence : Precedence)
  /-- a trie was compiled from one command -/
  | built (command : String) (nodes terminals : Nat)
  /-- a trie was compiled from several commands -/
  | merged (commands nodes terminals : Nat)
  /-- a manifest was read -/
  | readManifest (commands : Nat)
  /-- a file of commands was loaded -/
  | loaded (commands : Nat) (path : String)
  /-- a declared command was executed -/
  | executed (label sender input : String)
deriving DecidableEq

/-- The value of a field. -/
inductive FieldValue where
  | count (n : Nat)
  /-- a text that a log line shows as it is -/
  | plain (text : String)
  /-- a text that a log line shows in quotes -/
  | quoted (text : String)
deriving DecidableEq, Repr

/-- The value as a log line shows it. -/
def FieldValue.shown : FieldValue → String
  | count n => toString n
  | plain text => text
  | quoted text => Text.quoted text

namespace Event

/-- What a rule of precedence does with the later of two terminals. -/
def action : Precedence → String
  | .lastWins => "replaced"
  | .keepFirst => "kept first"

/-- How important the event is. -/
def level : Event → Level
  | createdNode .. => .trace
  | duplicateTerminal isWarning .. => if isWarning then .warn else .debug
  | built .. => .debug
  | merged .. => .debug
  | readManifest .. => .debug
  | loaded .. => .info
  | executed .. => .info

/-- What happened, in words. -/
def message : Event → String
  | createdNode .. => "Created node"
  | duplicateTerminal .. => "Duplicate terminal"
  | built .. => "Built command graph"
  | merged .. => "Merged command graph"
  | readManifest .. => "Parsed command declarations"
  | loaded commands path => "Loaded " ++ toString commands ++ " commands from " ++ path
  | executed .. => "Executed declared command"

/-- The named fields, in the order in which they are shown. -/
def fields : Event → List (String × FieldValue)
  | createdNode parent child argument =>
    [("parent", .plain parent.display), ("child", .plain child.display),
      ("argument", .plain argument.display)]
  | duplicateTerminal _ command node precedence =>
    [("command", .quoted command), ("node", .plain node.display),
      ("action", .quoted (action precedence))]
  | built command nodes terminals =>
    [("command", .plain command), ("nodes", .count nodes), ("terminals", .count terminals)]
  | merged commands nodes terminals =>
    [("commands", .count commands), ("nodes", .count nodes), ("terminals", .count terminals)]
  | readManifest commands => [("commands", .count commands)]
  | loaded .. => []
  | executed label sender input =>
    [("command", .plain label), ("sender", .quoted sender), ("input", .quoted input)]

/-- The part of the program that reports the event. -/
def target : Event → String
  | readManifest .. => "command_graph::declare"
  | loaded .. => "graph_dump"
  | executed .. => "command_graph::declare"
  | _ => "command_graph::graph::builder"

/-- A line for the event in a plain log, without the line end. The name of the level is set flush
right in five columns. -/
def line (time : String) (event : Event) : String :=
  let level := String.ofList (event.level.name.toList.leftpad 5 ' ')
  let fields := event.fields.map fun (name, value) => " " ++ name ++ "=" ++ value.shown
  time ++ " " ++ level ++ " " ++ event.target ++ ": " ++ event.message ++ String.join fields

end Event

/-- A rule that selects events: those from parts of the program whose name begins with a text, from a
level on. -/
structure Directive where
  target : String
  level : Level
deriving DecidableEq, Repr

/-- Whether a directive selects an event. -/
def Directive.admits (directive : Directive) (event : Event) : Bool :=
  directive.target.toList.isPrefixOf event.target.toList &&
    decide (directive.level.rank ≤ event.level.rank)

end Dispatch
