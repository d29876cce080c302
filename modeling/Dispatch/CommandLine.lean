import Dispatch.Failure
import Dispatch.Layout.Json

/-!
# The command line

The program takes the file of a manifest, compiles it or one of its commands, and prints the trie as
an outline or as JSON. On demand it prints before that what it did.

## Main definitions

* `Options` — what the user asks for
* `Options.parse` — from the words of the command line
* `Report`, `Report.text` — what the program answers, and what it prints
* `Options.directive`, `Options.shown` — which events the log shows
* `Options.run` — the answer for a file
-/

set_option autoImplicit false

namespace Dispatch

/-- What the user asks for. -/
structure Options where
  path : String
  /-- the only command to compile, by name or alias -/
  command : Option String
  /-- the name of the output format -/
  format : String
  /-- whether the events of all levels are shown -/
  verbose : Bool
deriving DecidableEq, Repr

/-- Why there is nothing to run. -/
inductive Refusal where
  /-- the user asks how the program is used -/
  | help
  /-- the words are not understood -/
  | misuse
deriving DecidableEq, Repr

namespace Options

/-- How the program is used. -/
def usage : List String :=
  ["Compile command declarations and print the dispatch graph",
    "",
    "Usage: graph_dump [OPTIONS] <PATH>",
    "",
    "Arguments:",
    "  <PATH>  Declaration file (TOML)",
    "",
    "Options:",
    "      --command <COMMAND>  Only compile this command (name or alias)",
    "      --format <FORMAT>    Output format: text or json [default: text]",
    "  -v, --verbose            Enable debug logging of the build",
    "  -h, --help               Print help"]

/-- The options seen so far. -/
structure Draft where
  path : Option String := none
  command : Option String := none
  format : Option String := none
  verbose : Bool := false

/-- What an option does. -/
inductive Switch where
  | command
  | format
  | verbose
  | help

/-- An option by its long name. -/
def Switch.ofName? : List Char → Option Switch
  | ['c', 'o', 'm', 'm', 'a', 'n', 'd'] => some .command
  | ['f', 'o', 'r', 'm', 'a', 't'] => some .format
  | ['v', 'e', 'r', 'b', 'o', 's', 'e'] => some .verbose
  | ['h', 'e', 'l', 'p'] => some .help
  | _ => none

namespace Draft

/-- Takes a word as the file, of which there is only one, and which has a name. -/
def setPath (draft : Draft) (word : String) : Except Refusal Draft :=
  if draft.path.isSome || word.isEmpty then .error .misuse
  else .ok { draft with path := some word }

/-- Takes the command to compile, which is given at most once. -/
def setCommand (draft : Draft) (name : String) : Except Refusal Draft :=
  if draft.command.isSome then .error .misuse else .ok { draft with command := some name }

/-- Takes the format, which is given at most once. -/
def setFormat (draft : Draft) (name : String) : Except Refusal Draft :=
  if draft.format.isSome then .error .misuse else .ok { draft with format := some name }

/-- Asks for all events, which is done at most once. -/
def setVerbose (draft : Draft) : Except Refusal Draft :=
  if draft.verbose then .error .misuse else .ok { draft with verbose := true }

/-- Takes the letters of a word of short options. -/
def setLetters (draft : Draft) : List Char → Except Refusal Draft
  | [] => .ok draft
  | 'v' :: rest => do (← draft.setVerbose).setLetters rest
  | 'h' :: _ => .error .help
  | _ => .error .misuse

/-- The options, once all words have been taken. A file must have been named. -/
def finish (draft : Draft) : Except Refusal Options :=
  match draft.path with
  | none => .error .misuse
  | some path =>
    .ok ⟨path, draft.command, draft.format.getD "text", draft.verbose⟩

end Draft

/-- Whether a word can be the value of an option: it does not look like an option itself. -/
def isValue (word : String) : Bool :=
  match word.toList with
  | '-' :: _ :: _ => false
  | _ => true

/-- The name of a long option, and its value where one is attached. -/
def splitValue (word : List Char) : List Char × Option String :=
  match word.dropWhile (· ≠ '=') with
  | '=' :: value => (word.takeWhile (· ≠ '='), some (String.ofList value))
  | _ => (word, none)

/-- What a word of the command line is by its form. -/
inductive Word where
  | file
  /-- all words behind it are files -/
  | endOfOptions
  | short (letters : List Char)
  | long (switch : Switch) (attached : Option String)
  | unknown

/-- The form of a word. A lone hyphen is a file. -/
def Word.classify (word : String) : Word :=
  match word.toList with
  | ['-', '-'] => .endOfOptions
  | '-' :: '-' :: name =>
    let (name, attached) := splitValue name
    match Switch.ofName? name with
    | some switch => .long switch attached
    | none => .unknown
  | '-' :: letter :: letters => .short (letter :: letters)
  | _ => .file

/-- Takes the words of the command line in order. -/
def parseWords (draft : Draft) : List String → Except Refusal Draft
  | [] => .ok draft
  | word :: rest =>
    match Word.classify word with
    | .file => do parseWords (← draft.setPath word) rest
    | .endOfOptions => rest.foldlM Draft.setPath draft
    | .short letters => do parseWords (← draft.setLetters letters) rest
    | .long .help none => .error .help
    | .long .verbose none => do parseWords (← draft.setVerbose) rest
    | .long .command (some value) => do parseWords (← draft.setCommand value) rest
    | .long .format (some value) => do parseWords (← draft.setFormat value) rest
    | .long .command none =>
      match rest with
      | [] => .error .misuse
      | value :: rest =>
        if isValue value then do parseWords (← draft.setCommand value) rest else .error .misuse
    | .long .format none =>
      match rest with
      | [] => .error .misuse
      | value :: rest =>
        if isValue value then do parseWords (← draft.setFormat value) rest else .error .misuse
    | _ => .error .misuse

/-- Reads the words of the command line. -/
def parse (words : List String) : Except Refusal Options := do
  (← parseWords {} words).finish

end Options

/-- What the program answers. -/
structure Report where
  exitCode : UInt32
  /-- the events to be shown, before the output -/
  events : List Event
  output : String
  failure : Option Failure

namespace Report

/-- The answer to a command line that is not understood, or that asks for help. -/
def ofRefusal : Refusal → Report
  | .help => ⟨0, [], String.join (Options.usage.map (· ++ "\n")), none⟩
  | .misuse => ⟨2, [], "", none⟩

/-- The answer when something has failed. -/
def ofFailure (events : List Event) (failure : Failure) : Report := ⟨1, events, "", some failure⟩

/-- The lines of the log, given how the log writes an event that comes after so many others. -/
def logText (line : Nat → Event → String) (report : Report) : String :=
  String.join (report.events.mapIdx fun earlier event => line earlier event ++ "\n")

/-- What the program prints: the lines of the log, and then the output. -/
def text (line : Nat → Event → String) (report : Report) : String :=
  report.logText line ++ report.output

end Report

namespace Options

/-- The trie in the format that is asked for; every format but `json` is the outline. -/
def render {γ ε : Type} (options : Options) (trie : Trie γ ε) : String :=
  if options.format = "json" then trie.layout.toJson.pretty ++ "\n" else trie.text

/-- The compilation that is asked for. -/
def compile (options : Options) (manifest : Manifest) :
    Except Failure (Compilation Permission Label) :=
  match options.command with
  | none => .ok manifest.compile
  | some name =>
    match manifest.find? name with
    | some command => .ok (manifest.compileOnly command)
    | none => .error (.unknownCommand name)

/-- Which events the log shows: those of the library, and details only on request. -/
def directive (options : Options) : Directive :=
  ⟨"command_graph", if options.verbose then .trace else .info⟩

/-- The events that are shown. -/
def shown (options : Options) (events : List Event) : List Event :=
  events.filter options.directive.admits

/-- What is reported once the file was loaded. -/
def loadEvents (options : Options) (manifest : Manifest) : List Event :=
  [manifest.readEvent, .loaded manifest.commands.length options.path]

/-- The answer for a file, given its bytes if there is such a file, and how documents are read. -/
def run (options : Options) (bytes : Option ByteArray)
    (read : Toml.DocumentReader := Toml.ofDocument?) : Report :=
  match Source.text bytes with
  | .error failure => .ofFailure [] failure
  | .ok text =>
    match Manifest.ofText text read with
    | .error error => .ofFailure [] (.ofReadError error)
    | .ok manifest =>
      match options.compile manifest with
      | .error failure => .ofFailure (options.shown (options.loadEvents manifest)) failure
      | .ok compilation =>
        let events := options.shown (options.loadEvents manifest ++ compilation.log.toList)
        match compilation.result with
        | .error error => .ofFailure events (.compilation error)
        | .ok trie => ⟨0, events, options.render trie, none⟩

end Options

end Dispatch
