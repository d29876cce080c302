import Dispatch.Failure
import Dispatch.Proofs.Argument.Pattern
import Dispatch.Proofs.Manifest.Declaration
import Dispatch.Proofs.Manifest.Decoding

/-!
# What is wrong with a manifest

A manifest is refused in two steps. A document that does not fit the declared data is refused as such,
whatever its commands are. In one that fits, everything that is wrong with the commands is brought into
one order: the commands come as in the document, each of them before its subcommands, and in a command
first its name is looked at, then one usage after the other. The first offence decides the refusal. A
manifest without any offence is accepted, and its commands are those that are declared, at every depth.

## Main definitions

* `DeclaredUsage.offences`, `DeclaredCommand.offences` — everything that is wrong, in order
* `DeclaredCommand.Declares` — a command is what is declared, at every depth

## Main results

* `DeclaredCommand.failure?_toCommand` — a command is refused for the first offence in its tree
* `Manifest.ofText_eq_document_iff`, `Manifest.ofText_eq_declaration_iff` — why a text is refused
* `Manifest.refuses_first_fault` — all of it
-/

set_option autoImplicit false

namespace Dispatch

open Text

/-! ### Everything that is wrong -/

/-- What is wrong with a usage of a command of the given name: its pattern is blank, or words of it are no
arguments. -/
def DeclaredUsage.offences (command : String) (declared : DeclaredUsage) : List ManifestError :=
  (if isBlankText declared.pattern then [.emptyPattern command] else []) ++
    ((words declared.pattern.toList).filterMap fun word =>
      failure? (Argument.parse (String.ofList word))).map (.badPattern command declared.pattern)

namespace DeclaredCommand

mutual

/-- A declared command and all commands below it, each of them before its subcommands. -/
def tree : DeclaredCommand → List DeclaredCommand
  | ⟨name, aliases, permission, runs, usages, subcommands⟩ =>
    ⟨name, aliases, permission, runs, usages, subcommands⟩ :: treesOf subcommands

/-- Several declared commands and all commands below them. -/
def treesOf : List DeclaredCommand → List DeclaredCommand
  | [] => []
  | declared :: rest => declared.tree ++ treesOf rest

end

/-- What is wrong with a declared command itself: first its name, if it is blank, and then its usages. -/
def ownOffences (declared : DeclaredCommand) : List ManifestError :=
  (if isBlankText declared.name then [.blankName] else []) ++
    declared.usages.flatMap (DeclaredUsage.offences declared.name)

/-- Everything that is wrong in the tree of a declared command, in the order of the tree. -/
def offences (declared : DeclaredCommand) : List ManifestError := declared.tree.flatMap ownOffences

theorem treesOf_eq (declared : List DeclaredCommand) : treesOf declared = declared.flatMap tree := by
  induction declared with
  | nil => rfl
  | cons first rest ih => rw [treesOf, ih, List.flatMap_cons]

theorem offences_eq (declared : DeclaredCommand) :
    declared.offences = declared.ownOffences ++ declared.subcommands.flatMap offences := by
  obtain ⟨name, aliases, permission, runs, usages, subcommands⟩ := declared
  rw [offences, tree, List.flatMap_cons, treesOf_eq, List.flatMap_assoc]
  rfl

end DeclaredCommand

/-! ### The first offence -/

/-- A pattern is refused for the first of its words that is no argument. -/
theorem Argument.failure?_parseAll (pattern : String) : failure? (Argument.parseAll pattern) =
    ((words pattern.toList).filterMap fun word =>
      failure? (Argument.parse (String.ofList word))).head? := by
  rw [Argument.parseAll, failure?_mapM, List.head?_filterMap]

/-- A usage is refused for the first thing that is wrong with it. -/
theorem DeclaredUsage.failure?_toUsage (command : String) (declared : DeclaredUsage) :
    failure? (declared.toUsage command) = (declared.offences command).head? := by
  have refused := Argument.failure?_parseAll declared.pattern
  have empty : Argument.parseAll declared.pattern = .ok [] ↔ isBlankText declared.pattern = true :=
    Argument.parseAll_eq_nil_iff
  rw [offences, List.head?_append, List.head?_map, ← refused, toUsage]
  -- A blank pattern has no words, so at most one of the two things is wrong.
  cases read : Argument.parseAll declared.pattern with
  | error cause =>
    have filled : ¬ isBlankText declared.pattern = true := by simp [← empty, read]
    rw [if_neg filled]
    rfl
  | ok arguments =>
    cases arguments with
    | nil =>
      rw [if_pos (empty.mp read)]
      rfl
    | cons first rest =>
      have filled : ¬ isBlankText declared.pattern = true := by simp [← empty, read]
      rw [if_neg filled]
      rfl

namespace DeclaredCommand

mutual

/-- A command is refused for the first offence in its tree. -/
theorem failure?_toCommand : ∀ declared : DeclaredCommand,
    failure? declared.toCommand = declared.offences.head?
  | ⟨name, aliases, permission, runs, usages, subcommands⟩ => by
    rw [offences_eq, ownOffences, List.head?_append, List.head?_append, ← failure?_toCommands subcommands,
      List.head?_flatMap]
    simp only [← DeclaredUsage.failure?_toUsage, ← failure?_mapM]
    rw [toCommand]
    -- The name, the usages and the subcommands are checked in the order in which their offences stand.
    cases isBlankText name with
    | true => rfl
    | false =>
      cases usages.mapM (DeclaredUsage.toUsage name) with
      | error error => rfl
      | ok read => cases toCommands subcommands <;> rfl

/-- Commands are refused for the first offence in any of them. -/
theorem failure?_toCommands : ∀ declared : List DeclaredCommand,
    failure? (toCommands declared) = (declared.flatMap offences).head?
  | [] => rfl
  | declared :: rest => by
    rw [List.flatMap_cons, List.head?_append, ← failure?_toCommand declared, ← failure?_toCommands rest,
      toCommands]
    cases declared.toCommand with
    | error error => rfl
    | ok command => cases toCommands rest <;> rfl

end

end DeclaredCommand

/-! ### Which offences there are -/

namespace DeclaredUsage

variable {command : String} {declared : DeclaredUsage} {error : ManifestError}

theorem offences_ne_nil_iff : declared.offences command ≠ [] ↔ isBlankText declared.pattern = true ∨
    ∃ word ∈ words declared.pattern.toList, ∃ cause,
      Argument.parse (String.ofList word) = .error cause := by
  rw [offences, Ne, List.append_eq_nil_iff, List.map_eq_nil_iff, List.filterMap_eq_nil_iff]
  cases isBlankText declared.pattern with
  | true => simp
  | false => simp [← Option.isSome_iff_ne_none, Option.isSome_iff_exists]

/-- The first thing that is wrong with a usage is that its pattern is blank, or the first of its words
that is no argument. -/
theorem head?_offences_eq_some_iff : (declared.offences command).head? = some error ↔
    (isBlankText declared.pattern = true ∧ error = .emptyPattern command) ∨
      ∃ cause, Argument.parseAll declared.pattern = .error cause ∧
        error = .badPattern command declared.pattern cause := by
  have blank : Argument.parseAll declared.pattern = .ok [] ↔ isBlankText declared.pattern = true :=
    Argument.parseAll_eq_nil_iff
  rw [← failure?_toUsage, failure?_eq_some_iff, ← blank, toUsage]
  cases Argument.parseAll declared.pattern with
  | error cause => simp [eq_comm]
  | ok arguments => cases arguments <;> simp [eq_comm (b := error)]

end DeclaredUsage

namespace DeclaredCommand

variable {declared : DeclaredCommand} {error : ManifestError}

theorem ownOffences_ne_nil_iff : declared.ownOffences ≠ [] ↔ isBlankText declared.name = true ∨
    ∃ usage ∈ declared.usages, usage.offences declared.name ≠ [] := by
  rw [ownOffences, Ne, List.append_eq_nil_iff, List.flatMap_eq_nil_iff]
  cases isBlankText declared.name with
  | true => simp
  | false => simp

theorem offences_ne_nil_iff : declared.offences ≠ [] ↔
    ∃ member ∈ declared.tree, member.ownOffences ≠ [] := by
  rw [offences, Ne, List.flatMap_eq_nil_iff]
  push Not
  rfl

/-- Something is wrong in the tree of a command exactly if a name is blank, or a pattern is blank or has a
word that is no argument. -/
theorem exists_offences_ne_nil_iff {commands : List DeclaredCommand} :
    commands.flatMap offences ≠ [] ↔ ∃ root ∈ commands, ∃ member ∈ root.tree,
      isBlankText member.name = true ∨ ∃ usage ∈ member.usages, isBlankText usage.pattern = true ∨
        ∃ word ∈ words usage.pattern.toList, ∃ cause,
          Argument.parse (String.ofList word) = .error cause := by
  rw [Ne, List.flatMap_eq_nil_iff]
  push Not
  simp only [offences_ne_nil_iff, ownOffences_ne_nil_iff, DeclaredUsage.offences_ne_nil_iff]

/-- The first offence is the first one of some command in the trees. -/
theorem exists_offender {commands : List DeclaredCommand}
    (first : (commands.flatMap offences).head? = some error) :
    ∃ root ∈ commands, ∃ member ∈ root.tree, member.ownOffences.head? = some error := by
  rw [List.head?_flatMap] at first
  obtain ⟨root, mem, first⟩ := List.exists_of_findSome?_eq_some first
  rw [offences, List.head?_flatMap] at first
  obtain ⟨member, below, first⟩ := List.exists_of_findSome?_eq_some first
  exact ⟨root, mem, member, below, first⟩

/-- If the first thing that is wrong with a command is a bad pattern, then it is that of one of its usages,
as it is written, and the cause is that of the first word that is no argument. -/
theorem exists_usage_of_badPattern {name pattern : String} {cause : ArgumentError}
    (first : declared.ownOffences.head? = some (.badPattern name pattern cause)) :
    declared.name = name ∧ ∃ usage ∈ declared.usages, usage.pattern = pattern ∧
      Argument.parseAll pattern = .error cause := by
  rw [ownOffences, List.head?_append, List.head?_flatMap] at first
  cases blank : isBlankText declared.name with
  | true => simp [blank] at first
  | false =>
    rw [blank, if_neg Bool.false_ne_true, List.head?_nil, Option.none_or] at first
    obtain ⟨usage, mem, first⟩ := List.exists_of_findSome?_eq_some first
    obtain ⟨-, other⟩ | ⟨cause', refused, same⟩ := DeclaredUsage.head?_offences_eq_some_iff.mp first
    · cases other
    · cases same
      exact ⟨rfl, usage, mem, rfl, refused⟩

end DeclaredCommand

/-! ### Accepted commands -/

/-- A usage is what is declared for a command of the given name. -/
structure DeclaredUsage.Declares (command : String) (declared : DeclaredUsage)
    (usage : Usage Permission Label) : Prop where
  arguments : Argument.parseAll declared.pattern = .ok usage.arguments
  filled : usage.arguments ≠ []
  executor : usage.executor = (declared.label? command).map Label.mk
  guard : usage.guard = declared.permission.map Permission.guard

/-- A command is what is declared: it has the declared name and aliases, its guard asks for the declared
permission, its executor reports under its name if the bare name can be executed, and its usages and its
subcommands are what is declared, one by one and in order. -/
inductive DeclaredCommand.Declares : DeclaredCommand → Command Permission Label → Prop
  | intro {declared : DeclaredCommand} {command : Command Permission Label}
      (name : command.name = declared.name) (aliases : command.aliases = declared.aliases)
      (guard : command.guard = declared.permission.map Permission.guard)
      (executor : command.executor = if declared.runs then some ⟨declared.name⟩ else none)
      (usages : List.Forall₂ (DeclaredUsage.Declares declared.name) declared.usages command.usages)
      (subcommands : List.Forall₂ Declares declared.subcommands command.subcommands) :
      Declares declared command

namespace DeclaredCommand

mutual

/-- An accepted command is what is declared. -/
theorem declares_of_toCommand : ∀ (declared : DeclaredCommand) {command : Command Permission Label},
    declared.toCommand = .ok command → declared.Declares command
  | ⟨name, aliases, permission, runs, usages, subcommands⟩, command, accepted => by
    obtain ⟨-, named, aliased, guarded, executed, read, below⟩ := toCommand_eq_ok_iff.mp accepted
    refine .intro named aliased guarded executed (read.imp fun declared usage accepted => ?_)
      (declares_of_toCommands subcommands below)
    obtain ⟨arguments, filled, executor, guard⟩ := DeclaredUsage.toUsage_eq_ok_iff.mp accepted
    exact ⟨arguments, filled, executor, guard⟩

theorem declares_of_toCommands : ∀ (declared : List DeclaredCommand)
    {commands : List (Command Permission Label)},
    List.Forall₂ (fun declared command => declared.toCommand = .ok command) declared commands →
      List.Forall₂ Declares declared commands
  | [], commands, accepted => by
    rw [List.forall₂_nil_left_iff.mp accepted]
    exact .nil
  | declared :: rest, commands, accepted => by
    obtain ⟨command, others, first, below, rfl⟩ := List.forall₂_cons_left_iff.mp accepted
    exact .cons (declares_of_toCommand declared first) (declares_of_toCommands rest below)

end

end DeclaredCommand

/-! ### Refused texts -/

namespace Manifest

variable {text : String} {read : Toml.DocumentReader} {declared : Declared} {manifest : Manifest}

/-- A text is refused as a document exactly if it does not fit the declared data. -/
theorem ofText_eq_document_iff {error : DocumentError} :
    Manifest.ofText text read = .error (.document error) ↔ Declared.ofText text read = .error error := by
  rw [Manifest.ofText]
  cases Declared.ofText text read with
  | error other => simp
  | ok declared =>
    simp only [reduceCtorEq, iff_false]
    cases ofDeclared declared <;> simp

/-- A text that fits the declared data is refused exactly for the first offence in it. -/
theorem ofText_eq_declaration_iff {error : ManifestError}
    (decoded : Declared.ofText text read = .ok declared) :
    Manifest.ofText text read = .error (.declaration error) ↔
      (declared.commands.flatMap DeclaredCommand.offences).head? = some error := by
  rw [← DeclaredCommand.failure?_toCommands, failure?_eq_some_iff, Manifest.ofText, decoded]
  simp only [ofDeclared]
  cases DeclaredCommand.toCommands declared.commands with
  | error other => simp [bind, Except.bind]
  | ok commands => simp [bind, Except.bind, pure, Except.pure]

/-- A manifest is refused for its first fault, however documents are read. A document that fits the declared
data is refused exactly if somewhere in the trees of its commands a name is blank, or a pattern is blank or has
a word that is no argument, and then for the first such offence; a bad pattern is reported as written, with the
name of the very command and the full words on its first bad token. If it is accepted, its commands are those
that are declared, one by one and at every depth. A text that does not fit is refused as a document, whatever
else is wrong with it, and it does not fit as soon as at one place stands what is not declared there. -/
theorem refuses_first_fault (read : Toml.DocumentReader) :
    (∀ text declared, Declared.ofText text read = .ok declared →
      ((∃ error, Manifest.ofText text read = .error (.declaration error)) ↔
        ∃ root ∈ declared.commands, ∃ member ∈ root.tree, isBlankText member.name = true ∨
          ∃ usage ∈ member.usages, isBlankText usage.pattern = true ∨
            ∃ word ∈ words usage.pattern.toList, ∃ cause,
              Argument.parse (String.ofList word) = .error cause) ∧
      (∀ error, Manifest.ofText text read = .error (.declaration error) ↔
        (declared.commands.flatMap DeclaredCommand.offences).head? = some error) ∧
      (∀ name pattern cause,
        Manifest.ofText text read = .error (.declaration (.badPattern name pattern cause)) →
          (∃ root ∈ declared.commands, ∃ member ∈ root.tree, member.name = name ∧
            ∃ usage ∈ member.usages, usage.pattern = pattern) ∧
          (∃ before word after, words pattern.toList = before ++ word :: after ∧
            (∀ other ∈ before, ∃ argument, Argument.parse (String.ofList other) = .ok argument) ∧
            Argument.parse (String.ofList word) = .error cause) ∧
          (Failure.ofReadError (.declaration (.badPattern name pattern cause))).message? =
            some ("Declaration error: " ++
              ("command '" ++ name ++ "', pattern '" ++ pattern ++ "': " ++ cause.report))) ∧
      (∀ error, Manifest.ofText text read ≠ .error (.document error)) ∧
      ∀ manifest, Manifest.ofText text read = .ok manifest → manifest.settings = declared.settings ∧
        List.Forall₂ DeclaredCommand.Declares declared.commands manifest.commands) ∧
    (∀ text error, Declared.ofText text read = .error error →
      Manifest.ofText text read = .error (.document error) ∧
        (Failure.ofReadError (.document error)).category = .document) ∧
    ∀ text entries form value, read text = some entries →
      Schema.Places (.record .manifest) (.table entries) form value → form.IsKeyed value →
        ¬ form.Fits value → ∃ misfit, Manifest.ofText text read = .error (.document (.misfit misfit)) := by
  refine ⟨fun text declared decoded => ⟨?_, ?_, ?_, ?_, ?_⟩, ?_, ?_⟩
  · rw [← DeclaredCommand.exists_offences_ne_nil_iff, ← List.isSome_head?, Option.isSome_iff_exists]
    exact exists_congr fun error => ofText_eq_declaration_iff decoded
  · exact fun error => ofText_eq_declaration_iff decoded
  · intro name pattern cause refused
    have first := (ofText_eq_declaration_iff decoded).mp refused
    -- Whatever encloses the offender, the first of its own offences is handed on as it is.
    obtain ⟨root, mem, member, below, first⟩ := DeclaredCommand.exists_offender first
    obtain ⟨named, usage, used, written, bad⟩ := DeclaredCommand.exists_usage_of_badPattern first
    exact ⟨⟨root, mem, member, below, named, usage, used, written⟩,
      Argument.parseAll_eq_error_iff.mp bad, rfl⟩
  · intro error refused
    rw [ofText_eq_document_iff, decoded] at refused
    cases refused
  · intro manifest accepted
    obtain ⟨declared', decoded', settings, commands⟩ := ofText_eq_ok_iff.mp accepted
    obtain rfl := Except.ok.inj (decoded.symm.trans decoded')
    exact ⟨settings, DeclaredCommand.declares_of_toCommands _ commands⟩
  · intro text error refused
    exact ⟨ofText_eq_document_iff.mpr refused, rfl⟩
  · intro text entries form value document place keyed misfit
    have refused : ∃ misfit, Declared.decode entries = .error misfit := by
      cases decoded : Declared.decode entries with
      | error misfit => exact ⟨misfit, rfl⟩
      | ok declared =>
        have accepted : (Schema.Form.record .manifest).Accepts (.table entries) := ⟨declared, decoded⟩
        exact absurd (Schema.fits_of_accepts keyed (place.accepts accepted)) misfit
    obtain ⟨misfit, refused⟩ := refused
    refine ⟨misfit, ofText_eq_document_iff.mpr ?_⟩
    rw [Declared.ofText, Declared.ofDocument, document]
    simp only [refused]

/-- An example: a subcommand has a pattern with two bad words, and a command without a name follows. -/
def fairText : String :=
  "[[commands]]\nname = \"fair\"\n[[commands.subcommands]]\nname = \"stall\"\n" ++
    "[[commands.subcommands.syntaxes]]\npattern = \"buy <x:vector> a:b\"\n[[commands]]\nname = \"\"\n"

/-- What the example declares. -/
def fair : Declared where
  settings := {}
  commands :=
    [⟨"fair", [], none, false, [],
        [⟨"stall", [], none, false, [⟨"buy <x:vector> a:b", none, true⟩], []⟩]⟩,
      ⟨"", [], none, false, [], []⟩]

theorem fair_decoded : Declared.ofText fairText = .ok fair := by decide +kernel

/-- Another example: a command without a name, and then one with a number for a name. -/
def strayText : String := "[[commands]]\nname = \"\"\n[[commands]]\nname = 1\n"

theorem stray_document : Toml.ofDocument? strayText =
    some [("commands", .array [.table [("name", .string "")], .table [("name", .integer 1)]])] := by decide +kernel

/-- The first example is refused for the first bad word of the subcommand, the second one for the
number. -/
theorem fair_refused : Declared.ofText fairText = .ok fair ∧
    Manifest.ofText fairText =
      .error (.declaration (.badPattern "stall" "buy <x:vector> a:b" (.unknownKind "vector"))) ∧
    (Failure.ofReadError
        (.declaration (.badPattern "stall" "buy <x:vector> a:b" (.unknownKind "vector")))).message? =
      some ("Declaration error: command 'stall', pattern 'buy <x:vector> a:b': " ++
        "Invalid argument token: unknown argument kind 'vector'") ∧
    ∃ misfit, Manifest.ofText strayText = .error (.document (.misfit misfit)) := by
  obtain ⟨fits, -, misfits⟩ := refuses_first_fault Toml.ofDocument?
  obtain ⟨-, first, message, -⟩ := fits fairText fair fair_decoded
  have refused :=
    (first (.badPattern "stall" "buy <x:vector> a:b" (.unknownKind "vector"))).mpr (by decide)
  refine ⟨fair_decoded, refused, (message _ _ _ refused).2.2.trans (by decide), ?_⟩
  refine misfits strayText _ .text (.integer 1) stray_document ?_ trivial nofun
  exact .entry (.tail _ (.head _)) (.head _)
    (.element (.tail _ (.head _)) (.entry (.head _) (.head _) (.self _ _)))

end Manifest

end Dispatch
