import Dispatch.CommandLine
import Dispatch.Proofs.Compile.Room
import Dispatch.Proofs.Manifest.Grants

/-!
# Accepted manifests compile

Commands are checked twice: when a manifest is read and when they are compiled. The two checks are
written separately, but no command that passes the first one is stopped by the second. So of a manifest
that was read everything can be compiled, all commands together and each of them alone, as long as an
arena has slots for the nodes; and the program fails after reading a manifest only if it is asked for a
command that is not declared.

## Main definitions

* `Manifest.FirstNamed` — the command that is found by a name
* `Options.AsksFor` — what the program is asked to compile

## Main results

* `Manifest.find?_eq_some_iff`, `Manifest.find?_eq_none_iff` — which command is found, and when there is none
* `Options.failure_run_eq_some_iff` — how the program fails once a manifest was read
* `Manifest.accepted_compiles` — nothing in an accepted manifest is refused later on
-/

set_option autoImplicit false

namespace Dispatch

/-- The bytes of a text are read as that text. -/
theorem Source.text_toUTF8 (text : String) : Source.text (some text.toUTF8) = .ok text := by
  have valid : text.toUTF8.IsValidUTF8 := text.isValidUTF8
  rw [Source.text, Option.bind_some, String.fromUTF8?, dif_pos valid]
  rfl

namespace Manifest

variable {text : String} {read : Toml.DocumentReader} {manifest : Manifest} {name : String}
  {command : Command Permission Label}

/-- Whatever was declared at whatever depth, an accepted command is usable. -/
theorem offence?_of_ofText (accepted : Manifest.ofText text read = .ok manifest) :
    ∀ command ∈ manifest.commands, command.offence? = none := by
  obtain ⟨declared, -, -, commands⟩ := ofText_eq_ok_iff.mp accepted
  exact DeclaredCommand.offence?_of_toCommands declared.commands commands

/-! ### Looking a command up -/

/-- A command is the first one of a manifest that has a name, as its own or as an alias. -/
def FirstNamed (manifest : Manifest) (name : String) (command : Command Permission Label) : Prop :=
  ∃ before after, manifest.commands = before ++ command :: after ∧ name ∈ command.names ∧
    ∀ other ∈ before, name ∉ other.names

theorem FirstNamed.mem (first : manifest.FirstNamed name command) : command ∈ manifest.commands := by
  obtain ⟨before, after, split, -⟩ := first
  simp [split]

theorem find?_eq_some_iff : manifest.find? name = some command ↔ manifest.FirstNamed name command := by
  simp [find?, FirstNamed, List.find?_eq_some_iff_append, and_left_comm]

theorem find?_eq_none_iff :
    manifest.find? name = none ↔ ∀ command ∈ manifest.commands, name ∉ command.names := by
  simp [find?]

end Manifest

namespace Options

/-- What the program is asked to compile: all commands if no name is given, and otherwise the first
command that has the name. -/
inductive AsksFor (options : Options) (manifest : Manifest) : CompileUnit Permission Label → Prop
  | all (unnamed : options.command = none) : AsksFor options manifest (.together manifest.commands)
  | one {name : String} {command : Command Permission Label} (named : options.command = some name)
      (first : manifest.FirstNamed name command) : AsksFor options manifest (.alone command)

variable {options : Options} {text : String} {read : Toml.DocumentReader} {manifest : Manifest}
  {bytes : Option ByteArray} {unit : CompileUnit Permission Label} {name : String}

theorem compile_of_asksFor (asked : options.AsksFor manifest unit) :
    options.compile manifest = .ok (unit.compile manifest.settings) := by
  unfold compile
  cases asked with
  | all unnamed =>
    rw [unnamed]
    rfl
  | one named first =>
    simp only [named, Manifest.find?_eq_some_iff.mpr first]
    rfl

theorem compile_of_absent (named : options.command = some name)
    (absent : ∀ command ∈ manifest.commands, name ∉ command.names) :
    options.compile manifest = .error (.unknownCommand name) := by
  simp only [compile, named, Manifest.find?_eq_none_iff.mpr absent]

/-- Either there is something to compile, or a name is given that no command of the manifest has. -/
theorem asksFor_or_absent (options : Options) (manifest : Manifest) :
    (∃ unit, options.AsksFor manifest unit) ∨
      ∃ name, options.command = some name ∧ ∀ command ∈ manifest.commands, name ∉ command.names := by
  cases named : options.command with
  | none => exact .inl ⟨_, .all named⟩
  | some name =>
    cases found : manifest.find? name with
    | none => exact .inr ⟨name, rfl, Manifest.find?_eq_none_iff.mp found⟩
    | some command => exact .inl ⟨_, .one named (Manifest.find?_eq_some_iff.mp found)⟩

/-- Commands that are compiled were declared, so that they are usable. -/
theorem usable_of_asksFor (accepted : Manifest.ofText text read = .ok manifest)
    (asked : options.AsksFor manifest unit) : unit.Usable := by
  have sound := Manifest.offence?_of_ofText accepted
  cases asked with
  | all unnamed => exact sound
  | one named first => exact List.forall_mem_singleton.mpr (sound _ first.mem)

/-- The program is successful exactly if nothing has failed. -/
theorem exitCode_run (options : Options) (bytes : Option ByteArray) (read : Toml.DocumentReader) :
    (options.run bytes read).exitCode = 0 ↔ (options.run bytes read).failure = none := by
  have failed (events : List Event) (failure : Failure) :
      (Report.ofFailure events failure).exitCode = 0 ↔
        (Report.ofFailure events failure).failure = none := by
    simp [Report.ofFailure]
  unfold run
  split
  · exact failed _ _
  · split
    · exact failed _ _
    · split
      · exact failed _ _
      · dsimp only
        split
        · exact failed _ _
        · exact iff_of_true rfl rfl

/-- Once the file was read and its manifest accepted, nothing but the compilation can fail. -/
theorem failure_run (loaded : Source.text bytes = .ok text)
    (accepted : Manifest.ofText text read = .ok manifest) :
    (options.run bytes read).failure =
      match options.compile manifest with
      | .error failure => some failure
      | .ok compilation =>
        match compilation.result with
        | .error error => some (.compilation error)
        | .ok _ => none := by
  unfold run
  simp only [loaded, accepted]
  cases options.compile manifest with
  | error failure => rfl
  | ok compilation =>
    dsimp only
    cases compilation.result with
    | error error => rfl
    | ok trie => rfl

/-- What is asked for is compiled if an arena has slots for its nodes, and nothing else can go wrong. -/
theorem failure_run_of_asksFor (loaded : Source.text bytes = .ok text)
    (accepted : Manifest.ofText text read = .ok manifest) (asked : options.AsksFor manifest unit) :
    (options.run bytes read).failure =
      if NodeId.capacity < unit.nodeCount then some (.compilation (.capacityExceeded NodeId.capacity))
      else none := by
  -- What was accepted is usable, so that room alone decides.
  have room := CompileUnit.decidedByRoom_of_usable (usable_of_asksFor accepted asked) manifest.settings
  rw [failure_run loaded accepted, compile_of_asksFor asked]
  unfold Compilation.DecidedByRoom at room
  split at room
  · rename_i fits
    obtain ⟨trie, compiled⟩ := room
    simp [compiled, not_lt.mpr fits]
  · rename_i full
    simp [room, not_le.mp full]

/-- The program fails if no command has the name that it is asked for, or if an arena has no slots for the
nodes, and for no other reason. -/
theorem failure_run_eq_some_iff (loaded : Source.text bytes = .ok text)
    (accepted : Manifest.ofText text read = .ok manifest) {failure : Failure} :
    (options.run bytes read).failure = some failure ↔
      (∃ name, options.command = some name ∧ (∀ command ∈ manifest.commands, name ∉ command.names) ∧
          failure = .unknownCommand name) ∨
        ∃ unit, options.AsksFor manifest unit ∧ NodeId.capacity < unit.nodeCount ∧
          failure = .compilation (.capacityExceeded NodeId.capacity) := by
  constructor
  · intro failed
    rcases options.asksFor_or_absent manifest with ⟨unit, asked⟩ | ⟨name, named, absent⟩
    · rw [failure_run_of_asksFor loaded accepted asked] at failed
      split at failed
      · rename_i full
        exact .inr ⟨unit, asked, full, (Option.some_inj.mp failed).symm⟩
      · simp at failed
    · rw [failure_run loaded accepted, compile_of_absent named absent] at failed
      exact .inl ⟨name, named, absent, (Option.some_inj.mp failed).symm⟩
  · rintro (⟨name, named, absent, rfl⟩ | ⟨unit, asked, full, rfl⟩)
    · rw [failure_run loaded accepted, compile_of_absent named absent]
    · rw [failure_run_of_asksFor loaded accepted asked, if_pos full]

end Options

/-- Nothing in an accepted manifest is refused later on, however documents are read. All commands together,
and every command alone, compile under any settings as long as an arena has slots for the nodes. A command is
found by a name exactly if it is the first one that has the name, and none is found exactly if no command has
it. Once the file is loaded, the program fails only if it is asked for a name that no command of the manifest
has, or for want of slots. -/
theorem Manifest.accepted_compiles {text : String} {read : Toml.DocumentReader} {manifest : Manifest}
    (accepted : Manifest.ofText text read = .ok manifest) :
    (∀ settings, (Trie.ofCommands settings manifest.commands).DecidedByRoom
        (CompileUnit.together manifest.commands).nodeCount) ∧
      (∀ command ∈ manifest.commands, ∀ settings, (Trie.ofCommand settings command).DecidedByRoom
        (CompileUnit.alone command).nodeCount) ∧
      (∀ name, (∀ command, manifest.find? name = some command ↔ manifest.FirstNamed name command) ∧
        (manifest.find? name = none ↔ ∀ command ∈ manifest.commands, name ∉ command.names)) ∧
      ∀ (options : Options) bytes, Source.text bytes = .ok text →
        ((options.run bytes read).exitCode = 0 ↔ (options.run bytes read).failure = none) ∧
        ∀ failure, (options.run bytes read).failure = some failure ↔
          (∃ name, options.command = some name ∧
              (∀ command ∈ manifest.commands, name ∉ command.names) ∧
              failure = .unknownCommand name) ∨
            ∃ unit, options.AsksFor manifest unit ∧ NodeId.capacity < unit.nodeCount ∧
              failure = .compilation (.capacityExceeded NodeId.capacity) := by
  have sound := Manifest.offence?_of_ofText accepted
  refine ⟨?_, ?_, fun name => ⟨fun command => find?_eq_some_iff, find?_eq_none_iff⟩, ?_⟩
  · intro settings
    have usable : (CompileUnit.together manifest.commands).Usable := sound
    exact CompileUnit.decidedByRoom_of_usable usable settings
  · intro command mem settings
    have usable : (CompileUnit.alone command).Usable :=
      List.forall_mem_singleton.mpr (sound command mem)
    exact CompileUnit.decidedByRoom_of_usable usable settings
  · intro options bytes loaded
    exact ⟨options.exitCode_run bytes read, fun _ => Options.failure_run_eq_some_iff loaded accepted⟩

/-- An example: two commands, of which the second one has the name of the first as an alias. -/
def Manifest.clockText : String :=
  "[[commands]]\nname = \"day\"\naliases = [\"noon\"]\ndefault = true\n" ++
    "[[commands]]\nname = \"night\"\naliases = [\"day\"]\n" ++
    "[[commands.syntaxes]]\npattern = \"<hour:integer>\"\n"

/-- What the example declares. -/
def Manifest.clock : Declared where
  settings := {}
  commands :=
    [⟨"day", ["noon"], none, true, [], []⟩,
      ⟨"night", ["day"], none, false, [⟨"<hour:integer>", none, true⟩], []⟩]

theorem Manifest.clock_decoded : Declared.ofText clockText = .ok clock := by decide +kernel

/-- The manifest of the example. -/
def Manifest.clockManifest : Manifest where
  settings := {}
  commands :=
    [⟨"day", ["noon"], none, some ⟨"day"⟩, [], []⟩,
      ⟨"night", ["day"], none, none,
        [⟨[.typed "hour" .integer none], some ⟨"night <hour:integer>"⟩, none⟩], []⟩]

theorem Manifest.clock_accepted : Manifest.ofText clockText = .ok clockManifest :=
  ofText_eq_ok_iff.mpr ⟨clock, clock_decoded, rfl, .cons rfl (.cons rfl .nil)⟩

/-- The file of the example is compiled as a whole, by the name of a command and by an alias. If both
commands have the name, then the first one is compiled, and if none has it, the program fails. -/
theorem Manifest.clock_runs : Manifest.ofText clockText = .ok clockManifest ∧
    (∀ name ∈ [none, some "night", some "noon", some "day"],
      (Options.run ⟨"clock.toml", name, "text", false⟩ (some clockText.toUTF8)).exitCode = 0) ∧
    (clockManifest.find? "day").map (·.aliases) = some ["noon"] ∧
    (Options.run ⟨"clock.toml", some "dusk", "text", false⟩ (some clockText.toUTF8)).failure =
      some (.unknownCommand "dusk") := by
  have loaded := Source.text_toUTF8 clockText
  obtain ⟨-, -, finds, runs⟩ := accepted_compiles clock_accepted
  have successful (name : Option String) (declared : ∀ other, name = some other →
        ∃ command ∈ clockManifest.commands, other ∈ command.names) :
      (Options.run ⟨"clock.toml", name, "text", false⟩ (some clockText.toUTF8)).exitCode = 0 := by
    obtain ⟨successful, fails⟩ := runs ⟨"clock.toml", name, "text", false⟩ _ loaded
    rw [successful, Option.eq_none_iff_forall_ne_some]
    intro failure failed
    rcases (fails failure).mp failed with ⟨other, named, absent, -⟩ | ⟨unit, asked, full, -⟩
    · obtain ⟨command, mem, bears⟩ := declared other named
      exact absent command mem bears
    · -- The two commands take few nodes, each alone and both together.
      have small : (CompileUnit.together clockManifest.commands).nodeCount ≤ NodeId.capacity ∧
          ∀ command ∈ clockManifest.commands, (CompileUnit.alone command).nodeCount ≤ NodeId.capacity := by
        decide
      cases asked with
      | all unnamed => exact absurd small.1 (not_le.mpr full)
      | one named first => exact absurd (small.2 _ first.mem) (not_le.mpr full)
  refine ⟨clock_accepted, ?_, ?_, ?_⟩
  · intro name mem
    have names : ∀ other ∈ ["night", "noon", "day"],
        ∃ command ∈ clockManifest.commands, other ∈ command.names := by decide
    refine successful name ?_
    rintro other rfl
    exact names other (by simpa using mem)
  · have first := (finds "day").1 ⟨"day", ["noon"], none, some ⟨"day"⟩, [], []⟩
    rw [first.mpr ⟨[], _, rfl, by decide, by simp⟩]
    rfl
  · obtain ⟨-, fails⟩ := runs ⟨"clock.toml", some "dusk", "text", false⟩ _ loaded
    exact (fails _).mpr (.inl ⟨"dusk", rfl, by decide, rfl⟩)

end Dispatch
