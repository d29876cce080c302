import Dispatch.Proofs.Compile.GuardChain
import Dispatch.Proofs.Manifest.Declaration

/-!
# What a manifest grants

A manifest grants the use of paths to those who hold permissions. Every declared command makes a grant
for its own node, and one for each of its usages; a grant lists the permissions that are declared on
the way to it, those of the enclosing commands first. In the compiled trie each terminal is ruled by
one grant: a sender is permitted exactly if all permissions of the grant are held, and a permitted use
is reported under the label of the grant.

## Main definitions

* `Grant` — what is declared for a path
* `DeclaredCommand.grantsAt`, `DeclaredCommand.grantsBelow`, `Declared.grants` — the grants of declared
  commands
* `Grant.Rules` — a terminal does what a grant says

## Main results

* `DeclaredCommand.offersAt_of_toCommand` — an accepted command offers what its declaration grants
* `Manifest.terminals_ruled` — every terminal of a compiled manifest is ruled by the grant that owns
  its node
-/

set_option autoImplicit false

namespace Dispatch

open Argument

/-- What is declared for a path. -/
structure Grant where
  path : List Argument
  /-- the name of the command that declares it -/
  command : String
  /-- the permissions on the way, those of the enclosing commands first -/
  permissions : List String
  /-- under which label a use is reported, if there is anything to execute -/
  label : Option String
  /-- whether a command declares it for its own node, and not for a usage -/
  isOwn : Bool

/-- The offer that makes good on a grant. -/
def Grant.offer (grant : Grant) : Offer Permission Label where
  path := grant.path
  command := grant.command
  guards := grant.permissions.map Permission.guard
  executor := grant.label.map Label.mk
  isOwn := grant.isOwn

/-- The arguments of a declared usage; there are none in a pattern that cannot be read. -/
def DeclaredUsage.arguments (declared : DeclaredUsage) : List Argument :=
  match Argument.parseAll declared.pattern with
  | .ok arguments => arguments
  | .error _ => []

namespace DeclaredCommand

mutual

/-- The grants of a declared command at `base`, given the permissions that enclose it. -/
def grantsAt (enclosing : List String) (base : List Argument) : DeclaredCommand → List Grant
  | ⟨name, _, permission, runs, usages, subcommands⟩ =>
    let permissions := enclosing ++ permission.toList
    ⟨base, name, permissions, if runs then some name else none, true⟩ ::
      (usages.map (fun usage =>
          ⟨base ++ usage.arguments, name, permissions ++ usage.permission.toList, usage.label? name,
            false⟩) ++
        grantsBelow permissions base subcommands)

/-- The grants of declared commands below `base`, each command at every one of its names. -/
def grantsBelow (enclosing : List String) (base : List Argument) : List DeclaredCommand → List Grant
  | [] => []
  | command :: rest =>
    command.names.flatMap (fun name => command.grantsAt enclosing (base ++ [.literal name])) ++
      grantsBelow enclosing base rest

end

private theorem map_guard_append_toList (enclosing : List String) (permission : Option String) :
    enclosing.map Permission.guard ++ (permission.map Permission.guard).toList =
      (enclosing ++ permission.toList).map Permission.guard := by
  cases permission <;> simp

mutual

/-- An accepted command offers what its declaration grants. -/
theorem offersAt_of_toCommand (enclosing : List String) (base : List Argument) :
    ∀ (declared : DeclaredCommand) {command : Command Permission Label},
      declared.toCommand = .ok command →
        command.offersAt (enclosing.map Permission.guard) base =
          (declared.grantsAt enclosing base).map Grant.offer
  | ⟨name, aliases, permission, runs, usages, subcommands⟩, command, accepted => by
    obtain ⟨-, named, -, guarded, executed, read, below⟩ := toCommand_eq_ok_iff.mp accepted
    obtain ⟨name', aliases', own, executor, usages', subcommands'⟩ := command
    obtain rfl : name' = name := named
    obtain rfl : own = permission.map Permission.guard := guarded
    obtain rfl : executor = if runs then some ⟨name'⟩ else none := executed
    rw [Command.offersAt, grantsAt, List.map_cons, List.map_append, List.map_map,
      map_guard_append_toList, offersBelow_of_toCommands _ base subcommands below]
    congr 1
    · -- The own node of the command carries the label only if the bare name can be executed.
      cases runs <;> rfl
    · congr 1
      refine map_eq_map_of_forall₂ read.flip ?_
      intro usage declared accepted
      obtain ⟨pattern, -, executor, guard⟩ := DeclaredUsage.toUsage_eq_ok_iff.mp accepted
      have arguments : declared.arguments = usage.arguments := by
        rw [DeclaredUsage.arguments, pattern]
      rw [executor, guard, map_guard_append_toList, ← arguments]
      rfl

theorem offersBelow_of_toCommands (enclosing : List String) (base : List Argument) :
    ∀ (declared : List DeclaredCommand) {commands : List (Command Permission Label)},
      List.Forall₂ (fun declared command => declared.toCommand = .ok command) declared commands →
        Command.offersBelow (enclosing.map Permission.guard) base commands =
          (grantsBelow enclosing base declared).map Grant.offer
  | [], commands, accepted => by
    rw [List.forall₂_nil_left_iff.mp accepted, Command.offersBelow, grantsBelow, List.map_nil]
  | declared :: rest, commands, accepted => by
    obtain ⟨command, others, first, below, rfl⟩ := List.forall₂_cons_left_iff.mp accepted
    rw [Command.offersBelow, grantsBelow, List.map_append, List.map_flatMap,
      offersBelow_of_toCommands enclosing base rest below]
    have sameNames : command.names = declared.names := by
      obtain ⟨name, aliases, permission, runs, usages, subcommands⟩ := declared
      obtain ⟨-, named, aliased, -⟩ := toCommand_eq_ok_iff.mp first
      rw [Command.names, named, aliased, names]
    rw [sameNames]
    congr 1
    refine List.flatMap_congr fun name _ => ?_
    exact offersAt_of_toCommand enclosing (base ++ [.literal name]) declared first

end

end DeclaredCommand

/-- The grants of all commands of a manifest, in order. -/
def Declared.grants (declared : Declared) : List Grant :=
  DeclaredCommand.grantsBelow [] [] declared.commands

/-! ### Ruling a terminal -/

namespace Grant

/-- The sender of an invocation holds every permission of a grant. -/
def AdmitsSender (grant : Grant) (invocation : Invocation) : Prop :=
  ∀ permission ∈ grant.permissions, invocation.sender.holds permission = true

/-- A terminal does what a grant says, whoever the sender is and whatever was reported before. -/
structure Rules (grant : Grant) (terminal : Terminal Permission Label) : Prop where
  /-- exactly those are permitted who hold all permissions -/
  permits_iff : ∀ (invocation : Invocation) (log : Array Event),
    ∃ answer, terminal.permits Manifest.handlers invocation log = .ok answer log ∧
      (answer = true ↔ grant.AdmitsSender invocation)
  /-- everybody else is denied, and nothing is reported -/
  denied : ∀ (invocation : Invocation) (log : Array Event), ¬ grant.AdmitsSender invocation →
    terminal.execute Manifest.handlers invocation log = .ok .denied log
  /-- without a label there is nothing to execute or to report -/
  noExecutor : ∀ (invocation : Invocation) (log : Array Event), grant.AdmitsSender invocation →
    grant.label = none → terminal.execute Manifest.handlers invocation log = .ok .noExecutor log
  /-- with a label, one event reports it together with the name of the sender and the input -/
  executed : ∀ (invocation : Invocation) (log : Array Event) (label : String),
    grant.AdmitsSender invocation → grant.label = some label →
      ∃ event : Event, terminal.execute Manifest.handlers invocation log =
          .ok .executed (log.push event) ∧
        event.level = .info ∧ event.message = "Executed declared command" ∧
        event.fields = [("command", .plain label), ("sender", .quoted invocation.sender.name),
          ("input", .quoted invocation.input)]

variable {grant : Grant} {terminal : Terminal Permission Label}

/-- Asking for permissions one after the other tells whether all are held, and reports nothing. -/
theorem ending_permissions (permissions : List String) (invocation : Invocation)
    (log : Array Event) :
    (inquire (fun guard : Guard Permission => guard.eval Manifest.handlers.ask invocation)
        (permissions.map Permission.guard) log).ending =
      .ok (permissions.all invocation.sender.holds) log := by
  induction permissions with
  | nil => rfl
  | cons permission rest ih =>
    have asked : (Permission.guard permission).eval Manifest.handlers.ask invocation log =
        .ok (invocation.sender.holds permission) log := rfl
    rw [List.map_cons, inquire, asked, List.all_cons]
    cases invocation.sender.holds permission with
    | true => exact ih
    | false => rfl

/-- The terminal that a grant offers is ruled by it. -/
theorem rules_of_offer (offered : grant.offer.terminal? = some terminal) : grant.Rules terminal := by
  obtain ⟨joined, executor⟩ := Terminal.of?_eq_some_iff.mp offered
  have enforces := Terminal.enforces_of_joinAll joined
  have answer (invocation : Invocation) : grant.permissions.all invocation.sender.holds = true ↔
      grant.AdmitsSender invocation := List.all_eq_true
  have outcome (invocation : Invocation) (log : Array Event) :
      terminal.execute Manifest.handlers invocation log = _ :=
    enforces.execute_eq Manifest.handlers invocation log
  rw [executor] at outcome
  simp only [Inquiry.outcome, Grant.offer, ending_permissions] at outcome
  refine ⟨?_, ?_, ?_, ?_⟩
  · intro invocation log
    refine ⟨_, ?_, answer invocation⟩
    rw [enforces.permits_eq]
    exact ending_permissions grant.permissions invocation log
  · intro invocation log refused
    rw [← answer, Bool.not_eq_true] at refused
    rw [outcome, refused]
  · intro invocation log admitted bare
    rw [← answer] at admitted
    rw [outcome, admitted, bare]
    rfl
  · intro invocation log label admitted labelled
    rw [← answer] at admitted
    refine ⟨.executed label invocation.sender.name invocation.input, ?_, rfl, rfl, rfl⟩
    rw [outcome, admitted, labelled]
    rfl

end Grant

/-! ### Compiled manifests -/

namespace Manifest

variable {text : String} {read : Toml.DocumentReader} {manifest : Manifest}

/-- A manifest that was read is compiled if its nodes fit into an arena. Every terminal is then ruled
by one grant of its declarations, the one that owns each path to the node by the declared rule of
precedence. -/
theorem terminals_ruled (accepted : Manifest.ofText text read = .ok manifest)
    (fits : (CompileUnit.together manifest.commands).nodeCount ≤ NodeId.capacity) :
    ∃ declared trie, Declared.ofText text read = .ok declared ∧ manifest.compile.result = .ok trie ∧
      ∀ id terminal, trie.terminal? id = some terminal →
        ∃ grant ∈ declared.grants, (∃ path, trie.lookup? path = some id) ∧
          (∀ path, trie.lookup? path = some id →
            owner? declared.settings.precedence path (declared.grants.map Grant.offer) =
              some grant.offer) ∧
          grant.Rules terminal := by
  obtain ⟨declared, decoded, settings, commands⟩ := ofText_eq_ok_iff.mp accepted
  have usable : (CompileUnit.together manifest.commands).Usable :=
    DeclaredCommand.offence?_of_toCommands declared.commands commands
  have granted : (CompileUnit.together manifest.commands).offers =
      declared.grants.map Grant.offer :=
    DeclaredCommand.offersBelow_of_toCommands [] [] declared.commands commands
  obtain ⟨trie, compiled⟩ :=
    (CompileUnit.exists_compile_eq_ok_iff manifest.settings _).mpr ⟨usable, fits⟩
  refine ⟨declared, trie, decoded, compiled, ?_⟩
  intro id terminal stored
  obtain ⟨offer, reached, owns, offered⟩ := CompileUnit.exists_owner_of_terminal compiled stored
  rw [granted, settings] at owns
  -- The owner is one of the offers, so it makes good on a grant.
  obtain ⟨path, leads⟩ := reached
  obtain ⟨grant, declares, rfl⟩ := List.mem_map.mp (mem_offersTo.mp (owner?_mem (owns path leads))).1
  exact ⟨grant, declares, ⟨path, leads⟩, owns, Grant.rules_of_offer offered⟩

/-- An example: a command and its subcommand ask for a permission each. -/
def sampleText : String :=
  "[[commands]]\nname = \"admin\"\npermission = \"staff\"\n" ++
    "[[commands.subcommands]]\nname = \"stop\"\npermission = \"owner\"\ndefault = true\n"

/-- What the example declares. -/
def sample : Declared where
  settings := {}
  commands :=
    [{ name := "admin"
       aliases := []
       permission := some "staff"
       runs := false
       usages := []
       subcommands :=
         [{ name := "stop"
            aliases := []
            permission := some "owner"
            runs := true
            usages := []
            subcommands := [] }] }]

theorem sample_decoded : Declared.ofText sampleText = .ok sample := by decide +kernel

/-- The manifest of the example. -/
def sampleManifest : Manifest where
  settings := {}
  commands :=
    [⟨"admin", [], some (Permission.guard "staff"), none, [],
      [⟨"stop", [], some (Permission.guard "owner"), some ⟨"stop"⟩, [], []⟩]⟩]

/-- Stopping is ruled by a grant that asks for both permissions and reports under the name of the
subcommand. -/
theorem sample_ruled : Manifest.ofText sampleText = .ok sampleManifest ∧
    ∃ trie id terminal, sampleManifest.compile.result = .ok trie ∧
      trie.lookup? [.literal "admin", .literal "stop"] = some id ∧
      trie.terminal? id = some terminal ∧
      ∃ grant : Grant, grant.permissions.map Permission.guard = [.single ⟨"staff"⟩, .single ⟨"owner"⟩] ∧
        grant.label.map Label.mk = some ⟨"stop"⟩ ∧ grant.Rules terminal := by
  have accepted : Manifest.ofText sampleText = .ok sampleManifest :=
    ofText_eq_ok_iff.mpr ⟨sample, sample_decoded, rfl, .cons rfl .nil⟩
  obtain ⟨declared, trie, decoded', compiled, ruled⟩ := terminals_ruled accepted (by decide)
  obtain rfl : sample = declared := Except.ok.inj (sample_decoded.symm.trans decoded')
  have together : ((CompileUnit.together sampleManifest.commands).compile {}).result = .ok trie :=
    compiled
  have held : (trie.terminalAt? [.literal "admin", .literal "stop"]).isSome := by
    rw [CompileUnit.terminalAt?_eq together]
    decide
  obtain ⟨terminal, atEnd⟩ := Option.isSome_iff_exists.mp held
  obtain ⟨id, found, stored⟩ := Option.bind_eq_some_iff.mp atEnd
  obtain ⟨grant, -, -, owns, rules⟩ := ruled id terminal stored
  have offer : some grant.offer = some ⟨[.literal "admin", .literal "stop"], "stop",
      [.single ⟨"staff"⟩, .single ⟨"owner"⟩], some ⟨"stop"⟩, true⟩ := (owns _ found).symm
  exact ⟨accepted, trie, id, terminal, compiled, found, stored, grant,
    congrArg Offer.guards (Option.some_inj.mp offer),
    congrArg Offer.executor (Option.some_inj.mp offer), rules⟩

end Manifest

end Dispatch
