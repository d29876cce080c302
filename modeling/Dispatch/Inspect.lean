import Dispatch.Command.Table
import Dispatch.Settings
import Dispatch.Text.Quoted
import Dispatch.Trie.Basic

/-!
# Records on one line

A notation for looking at values: a record is its name and its fields in braces, a list stands in
brackets, a text in quotes, and an optional value is `None` or `Some` of it. Guards and executors
are opaque; only their presence is shown.

## Main definitions

* `Inspect.record`, `Inspect.list`, `Inspect.optional`, `Inspect.boolean` — the notation
* `Argument.inspect`, `Usage.inspect`, `Command.inspect`, `CommandTable.inspect`, `Terminal.inspect`,
  `Trie.inspectNode`, `Trie.inspect`, `Settings.inspect` — the values that can be shown
-/

set_option autoImplicit false

namespace Dispatch

namespace Inspect

/-- Items between two marks, with commas between them. -/
def list (items : List String) : String := "[" ++ String.intercalate ", " items ++ "]"

/-- A record with its fields in order. -/
def record (name : String) (fields : List (String × String)) : String :=
  name ++ " \x7b " ++
    String.intercalate ", " (fields.map fun (field, value) => field ++ ": " ++ value) ++ " \x7d"

/-- A value that may be absent. -/
def optional : Option String → String
  | none => "None"
  | some value => "Some(" ++ value ++ ")"

/-- A truth value. -/
def boolean (value : Bool) : String := if value then "true" else "false"

end Inspect

open Inspect Text

/-- The name of a kind as a constructor. -/
def Kind.inspect : Kind → String
  | .word => "Word"
  | .string => "String"
  | .greedy => "Greedy"
  | .integer => "Integer"
  | .double => "Double"
  | .boolean => "Boolean"
  | .entity => "Entity"
  | .player => "Player"

/-- An argument as a record. -/
def Argument.inspect : Argument → String
  | literal text => record "Literal" [("text", quoted text)]
  | typed name kind description =>
    record "Typed"
      [("name", quoted name), ("kind", kind.inspect),
        ("description", optional (description.map quoted))]

/-- Settings as a record. -/
def Settings.inspect (settings : Settings) : String :=
  record "GraphConfig"
    [("duplicate_terminal",
        match settings.precedence with
        | .lastWins => "LastWins"
        | .keepFirst => "KeepFirst"),
      ("warn_on_duplicate", boolean settings.warnOnDuplicate)]

variable {γ ε : Type}

/-- A usage as a record. -/
def Usage.inspect (usage : Usage γ ε) : String :=
  record "Syntax"
    [("arguments", list (usage.arguments.map Argument.inspect)),
      ("has_executor", boolean usage.executor.isSome), ("has_guard", boolean usage.guard.isSome)]

/-- A command as a record of the given name, given how the commands below it are shown. -/
def Inspect.command (title name : String) (aliases : List String) (guard : Option (Guard γ))
    (executor : Option ε) (usages : List (Usage γ ε)) (subcommands : List String) : String :=
  record title
    [("name", quoted name), ("aliases", list (aliases.map quoted)),
      ("has_condition", boolean guard.isSome), ("has_default_executor", boolean executor.isSome),
      ("syntaxes", list (usages.map Usage.inspect)), ("subcommands", list subcommands)]

namespace Command

mutual

/-- A command as a record. -/
def inspect : Command γ ε → String
  | ⟨name, aliases, guard, executor, usages, subcommands⟩ =>
    Inspect.command "Command" name aliases guard executor usages (inspectEach subcommands)

/-- Several commands as records. -/
def inspectEach : List (Command γ ε) → List String
  | [] => []
  | command :: rest => command.inspect :: inspectEach rest

end

end Command

namespace CommandTable

mutual

/-- The table of a command as a record. -/
def inspect : CommandTable γ ε → String
  | ⟨name, aliases, guard, executor, usages, subcommands⟩ =>
    Inspect.command "SyntaxTable" name aliases guard executor usages (inspectEach subcommands)

/-- Several tables as records. -/
def inspectEach : List (CommandTable γ ε) → List String
  | [] => []
  | table :: rest => table.inspect :: inspectEach rest

end

end CommandTable

/-- A terminal as a record. -/
def Terminal.inspect (terminal : Terminal γ ε) : String :=
  record "Execution"
    [("has_guard", boolean terminal.guard.isSome),
      ("has_executor", boolean terminal.executor.isSome)]

/-- A node with its slot, and the number of its children. -/
def Trie.inspectNode (id : NodeId) (node : Node γ ε) : String :=
  record "Node"
    [("id", id.display), ("argument", optional (node.argument.map Argument.inspect)),
      ("children", toString node.children.length),
      ("execution", optional (node.terminal.map Terminal.inspect))]

/-- A node with the slots of its children. -/
def Node.inspect (node : Node γ ε) : String :=
  record "NodeData"
    [("argument", optional (node.argument.map Argument.inspect)),
      ("children", list (node.children.map NodeId.display)),
      ("execution", optional (node.terminal.map Terminal.inspect))]

/-- The arena in order. -/
def Trie.inspect (trie : Trie γ ε) : String :=
  record "Graph" [("nodes", list (trie.nodes.toList.map Node.inspect))]

end Dispatch
