import Dispatch.Argument.Token
import Dispatch.Manifest.Declared
import Dispatch.Trie.Compile

/-!
# Manifests

A manifest holds commands that are only declared: their guards ask for a permission, and their
executors report that they ran. It is made from the declared data once every name and every pattern
has been checked.

## Main definitions

* `Permission`, `Label` — the guards and executors of declared commands
* `Manifest.handlers` — what they do
* `ManifestError` — what can be wrong with declared commands
* `DeclaredCommand.toCommand` — the command that is declared
* `Manifest` — settings and commands
* `Manifest.ofText` — from the text of a document
* `Manifest.find?`, `Manifest.compile`, `Manifest.compileOnly` — using it
-/

set_option autoImplicit false

namespace Dispatch

/-- The guard of a declared command: it asks for a permission. -/
structure Permission where
  name : String
deriving DecidableEq, Repr

/-- The executor of a declared command: it reports that the command of this label ran. -/
structure Label where
  text : String
deriving DecidableEq, Repr

namespace Manifest

/-- What the guards and executors of declared commands do, the world being the events reported so
far. -/
def handlers : Handlers Permission Label (Array Event) where
  ask permission invocation := return invocation.sender.holds permission.name
  run label invocation :=
    modify (·.push (.executed label.text invocation.sender.name invocation.input))

end Manifest

/-- What can be wrong with declared commands. -/
inductive ManifestError where
  | blankName
  | badPattern (command pattern : String) (cause : ArgumentError)
  | emptyPattern (command : String)
deriving DecidableEq, Repr

/-- What is wrong, in words. -/
def ManifestError.message : ManifestError → String
  | blankName => "command without a name"
  | badPattern command pattern cause =>
    "command '" ++ command ++ "', pattern '" ++ pattern ++ "': " ++ cause.report
  | emptyPattern command => "command '" ++ command ++ "' has an empty pattern"

/-- The usage that is declared for a command of the given name. -/
def DeclaredUsage.toUsage (command : String) (declared : DeclaredUsage) :
    Except ManifestError (Usage Permission Label) :=
  match Argument.parseAll declared.pattern with
  | .error cause => .error (.badPattern command declared.pattern cause)
  | .ok [] => .error (.emptyPattern command)
  | .ok (first :: rest) =>
    .ok
      { arguments := first :: rest
        executor := if declared.executes then some ⟨command ++ " " ++ declared.pattern⟩ else none
        guard := declared.permission.map fun name => .single ⟨name⟩ }

namespace DeclaredCommand

mutual

/-- The command that is declared. Its name is checked first, then its usages in order, then its
subcommands in order. -/
def toCommand : DeclaredCommand → Except ManifestError (Command Permission Label)
  | ⟨name, aliases, permission, runs, usages, subcommands⟩ => do
    if Text.isBlankText name then throw .blankName
    let usages ← usages.mapM (DeclaredUsage.toUsage name)
    let subcommands ← toCommands subcommands
    return { name
             aliases
             guard := permission.map fun name => .single ⟨name⟩
             executor := if runs then some ⟨name⟩ else none
             usages
             subcommands }

/-- The commands that are declared, in order. -/
def toCommands : List DeclaredCommand → Except ManifestError (List (Command Permission Label))
  | [] => .ok []
  | declared :: rest => return (← declared.toCommand) :: (← toCommands rest)

end

end DeclaredCommand

/-- Settings and declared commands. -/
structure Manifest where
  settings : Settings
  commands : List (Command Permission Label)

namespace Manifest

/-- Why the text of a manifest is refused. -/
inductive ReadError where
  | document (error : DocumentError)
  | declaration (error : ManifestError)
deriving DecidableEq

/-- The manifest that is declared. -/
def ofDeclared (declared : Declared) : Except ManifestError Manifest := do
  return ⟨declared.settings, ← DeclaredCommand.toCommands declared.commands⟩

/-- The manifest in a text, given how documents are read. The whole document is decoded before any
command is checked. -/
def ofText (text : String) (read : Toml.DocumentReader := Toml.ofDocument?) :
    Except ReadError Manifest :=
  match Declared.ofText text read with
  | .error error => .error (.document error)
  | .ok declared =>
    match ofDeclared declared with
    | .error error => .error (.declaration error)
    | .ok manifest => .ok manifest

/-- What is reported when a manifest has been read. -/
def readEvent (manifest : Manifest) : Event := .readManifest manifest.commands.length

/-- The first command that has a name, as its own or as an alias. -/
def find? (manifest : Manifest) (name : String) : Option (Command Permission Label) :=
  manifest.commands.find? fun command => command.names.contains name

/-- All commands below one root. -/
def compile (manifest : Manifest) : Compilation Permission Label :=
  Trie.ofCommands manifest.settings manifest.commands

/-- One command alone. -/
def compileOnly (manifest : Manifest) (command : Command Permission Label) :
    Compilation Permission Label :=
  Trie.ofCommand manifest.settings command

end Manifest

end Dispatch
