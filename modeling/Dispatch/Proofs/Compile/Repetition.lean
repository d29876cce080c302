import Dispatch.Proofs.Compile.Retrace

/-!
# Names that are repeated

A command that lists a name twice is registered under it twice, and so is everything below it. The second
time repeats at each path what was registered there last, as nothing else starts with the same name in
between. So it makes no difference to what is compiled: neither to the nodes nor to the terminals, under
both rules of precedence. Only second terminals are reported once more.

## Main definitions

* `Command.withDistinctNames` — a command without repeated names
* `Command.Trimmed`, `CompileUnit.Trimmed` — the names of one command in a tree, in a unit were trimmed
* `Progress.LeavesOut` — a list of registrations from which an echo was left out

## Main results

* `Progress.echoes_of_mem` — a name that is repeated makes an echo
* `Command.Trimmed.leavesOut` — trimming the names of a command leaves out echoes
* `CompileUnit.repeated_names_harmless` — repeated names do not show in compiled tries
-/

set_option autoImplicit false

namespace Dispatch

open Argument Relation

variable {γ ε : Type}

/-! ### Trimming lists of names -/

namespace Command

/-- The command with every name listed once, where it comes up first. -/
def withDistinctNames (command : Command γ ε) : Command γ ε :=
  { command with aliases := (command.aliases.filter fun other => !other == command.name).eraseDups }

/-- The list of names of one command in the tree was trimmed. -/
inductive Trimmed : Command γ ε → Command γ ε → Prop
  | names (command : Command γ ε) : Trimmed command command.withDistinctNames
  | within {command inner other : Command γ ε} {before after : List (Command γ ε)}
      (placed : command.subcommands = before ++ inner :: after) (step : Trimmed inner other) :
      Trimmed command { command with subcommands := before ++ other :: after }

theorem firstOffence?_among {command other : Command γ ε} (before after : List (Command γ ε))
    (same : command.offence? = other.offence?) :
    firstOffence? (before ++ command :: after) = firstOffence? (before ++ other :: after) := by
  induction before with
  | nil => rw [List.nil_append, List.nil_append, firstOffence?, firstOffence?, same]
  | cons first before ih => rw [List.cons_append, List.cons_append, firstOffence?, firstOffence?, ih]

theorem names_withDistinctNames (command : Command γ ε) :
    command.withDistinctNames.names = command.names.eraseDups := by
  rw [names, names, List.eraseDups_cons]
  rfl

end Command

namespace Progress

variable {registrations others third front block back : List (Registration γ ε)}

/-! ### Leaving out echoes -/

/-- A list of registrations from which some were left out that repeat the last ones at their paths. -/
inductive LeavesOut : List (Registration γ ε) → List (Registration γ ε) → Prop
  | echo {front block : List (Registration γ ε)} (back : List (Registration γ ε))
      (echoes : Echoes front block) : LeavesOut (front ++ block ++ back) (front ++ back)

theorem LeavesOut.among (leavesOut : LeavesOut registrations others)
    (earlier later : List (Registration γ ε)) :
    LeavesOut (earlier ++ registrations ++ later) (earlier ++ others ++ later) := by
  cases leavesOut with
  | echo back echoes =>
    have longer := LeavesOut.echo (back ++ later) (echoes.append_left earlier)
    simpa only [List.append_assoc] using longer

/-- What is left out of a part is left out of the whole. -/
theorem leavesOut_among (steps : ReflTransGen LeavesOut registrations others)
    (earlier later : List (Registration γ ε)) :
    ReflTransGen LeavesOut (earlier ++ registrations ++ later) (earlier ++ others ++ later) :=
  steps.lift (earlier ++ · ++ later) fun _ _ step => step.among earlier later

theorem leavesOut_flatMap {α : Type} {part other : α → List (Registration γ ε)} (items : List α)
    (each : ∀ item ∈ items, ReflTransGen LeavesOut (part item) (other item)) :
    ReflTransGen LeavesOut (items.flatMap part) (items.flatMap other) := by
  induction items with
  | nil => exact .refl
  | cons item items ih =>
    obtain ⟨first, rest⟩ := List.forall_mem_cons.mp each
    rw [List.flatMap_cons, List.flatMap_cons]
    have before := leavesOut_among first [] (items.flatMap part)
    have behind := leavesOut_among (ih rest) (other item) []
    simp only [List.nil_append, List.append_nil] at before behind
    exact before.trans behind

/-! ### Names that come up again -/

section Names

variable {part : String → List (Registration γ ε)} {names : List String} {name : String}
  (apart : ∀ name other, name ≠ other → ∀ registration ∈ part name, ∀ registration' ∈ part other,
    ¬ SamePath registration.path registration'.path)

include apart

/-- If different names are registered apart, then a name that comes up again repeats at each path what
was registered there last. -/
theorem echoes_of_mem (mem : name ∈ names) : Echoes (names.flatMap part) (part name) := by
  intro path
  -- Behind the last place of the name there are other names only.
  obtain ⟨behind, before, split, elsewhere⟩ := List.eq_append_cons_of_mem (List.mem_reverse.mpr mem)
  have order : names = before.reverse ++ name :: behind.reverse := by
    rw [← List.reverse_reverse names, split]
    simp
  by_cases here : registrationsTo path (part name) = []
  · rw [here]
    exact List.nil_suffix
  · obtain ⟨registration, present⟩ := List.exists_mem_of_ne_nil _ here
    obtain ⟨own, same⟩ := List.mem_filter.mp present
    have nothing : registrationsTo path (behind.reverse.flatMap part) = [] := by
      refine List.filter_eq_nil_iff.mpr fun registration' mem' => ?_
      obtain ⟨other, isOther, there⟩ := List.mem_flatMap.mp mem'
      have differ : name ≠ other := by
        rintro rfl
        exact elsewhere (List.mem_reverse.mp isOther)
      intro same'
      have meet := (of_decide_eq_true same).symm.trans (of_decide_eq_true same')
      exact apart name other differ registration own registration' there meet
    rw [order, List.flatMap_append, List.flatMap_cons, ← List.append_assoc, registrationsTo_append,
      registrationsTo_append, nothing, List.append_nil]
    exact List.suffix_append _ _

/-- Listing every name once leaves out echoes. -/
theorem leavesOut_eraseDups (names : List String) :
    ReflTransGen LeavesOut (names.flatMap part) (names.eraseDups.flatMap part) := by
  -- The names are taken from the end, as it is the later one of two that is left out.
  induction names using List.reverseRecOn with
  | nil => exact .refl
  | append_singleton names name ih =>
    rw [List.eraseDups_append, List.flatMap_append, List.flatMap_append, List.flatMap_singleton]
    by_cases mem : name ∈ names
    · have gone : [name].removeAll names = [] := by simp [List.removeAll, mem]
      have step := LeavesOut.echo [] (echoes_of_mem apart mem)
      rw [List.append_nil, List.append_nil] at step
      rw [gone, List.eraseDups_nil, List.flatMap_nil, List.append_nil]
      exact .head step ih
    · have kept : [name].removeAll names = [name] := by simp [List.removeAll, mem]
      have longer := leavesOut_among ih [] (part name)
      rw [kept]
      simpa [List.eraseDups_cons] using longer

end Names

/-! ### Processing what is left -/

/-- What was left out does not show but in reports of second terminals. -/
theorem LeavesOut.endAlike {progress : Progress γ ε} {paths : List (List Argument)}
    (leavesOut : LeavesOut registrations others) (numbered : progress.trie.Numbering paths)
    (settings : Settings) :
    EndAlike EqButDuplicates (registerAll settings registrations progress)
      (registerAll settings others progress) := by
  cases leavesOut with
  | echo back echoes => exact (registerAll_echo numbered settings echoes).registerAll_append back

theorem endAlike_of_leavesOut {progress : Progress γ ε} {paths : List (List Argument)}
    (steps : ReflTransGen LeavesOut registrations others) (numbered : progress.trie.Numbering paths)
    (settings : Settings) :
    EndAlike EqButDuplicates (registerAll settings registrations progress)
      (registerAll settings others progress) := by
  induction steps with
  | refl => exact EndAlike.refl EqButDuplicates.refl _
  | tail _ step ih => exact ih.trans EqButDuplicates.trans (step.endAlike numbered settings)

end Progress

/-! ### Command trees -/

namespace Command

variable {command other : Command γ ε} {inherited guard : Option (Guard γ)} {base : List Argument}

theorem branches_eq_flatMap (guard : Option (Guard γ)) (base : List Argument)
    (commands : List (Command γ ε)) :
    branches guard base commands = commands.flatMap fun command =>
      command.names.flatMap fun name => command.registrationsAt guard (base ++ [.literal name]) := by
  induction commands with
  | nil => rfl
  | cons command rest ih => rw [branches_cons, List.flatMap_cons, ih]

/-- Everything that a command registers stands at its node or below it. -/
theorem prefix_of_mem_registrationsAt {registration : Registration γ ε}
    (mem : registration ∈ command.registrationsAt inherited base) : base <+: registration.path := by
  have joined : Guard.joinAll inherited.toList = inherited := by cases inherited <;> rfl
  rw [← joined, registrationsAt_eq, List.mem_map] at mem
  obtain ⟨offer, offered, rfl⟩ := mem
  have named : offer.path ∈ base :: command.visitedAt base := by
    rw [← path_offersAt inherited.toList]
    exact List.mem_map_of_mem offered
  rcases List.mem_cons.mp named with same | visited
  · exact same ▸ List.prefix_rfl
  · exact prefix_of_mem_visitedAt base command visited

/-- A command is registered apart under different names. -/
theorem registrationsAt_apart (guard : Option (Guard γ)) (base : List Argument)
    (command : Command γ ε) (name name' : String) (differ : name ≠ name') :
    ∀ registration ∈ command.registrationsAt guard (base ++ [.literal name]),
      ∀ registration' ∈ command.registrationsAt guard (base ++ [.literal name']),
        ¬ SamePath registration.path registration'.path := by
  intro registration mem registration' mem' same
  obtain ⟨rest, path⟩ := prefix_of_mem_registrationsAt mem
  obtain ⟨rest', path'⟩ := prefix_of_mem_registrationsAt mem'
  rw [← path, ← path', List.append_assoc, List.append_assoc, samePath_append_left_iff,
    List.singleton_append, List.singleton_append, samePath_cons_iff, literal_samePosition_iff] at same
  exact differ (Argument.literal.inj same.1).symm

namespace Trimmed

theorem name_eq (step : Trimmed command other) : command.name = other.name := by
  cases step <;> rfl

/-- Names other than the first one are not looked at when a command is checked. -/
theorem offence?_eq (step : Trimmed command other) : command.offence? = other.offence? := by
  induction step with
  | names command =>
    obtain ⟨name, aliases, own, executor, usages, subcommands⟩ := command
    rw [withDistinctNames, offence?, offence?]
  | @within command inner other before after placed _ ih =>
    obtain ⟨name, aliases, own, executor, usages, subcommands⟩ := command
    obtain rfl : subcommands = before ++ inner :: after := placed
    rw [offence?, offence?, firstOffence?_among _ _ ih]

/-- Either the names stay as they are, or every name is listed once. -/
theorem names_eq (step : Trimmed command other) :
    other.names = command.names ∨ other.names = command.names.eraseDups := by
  cases step with
  | names => exact Or.inr (names_withDistinctNames command)
  | within => exact Or.inl rfl

/-- A trimmed command leaves out echoes wherever it takes the place of the other one. -/
theorem leavesOut_branches (step : Trimmed command other)
    (each : ∀ base, ReflTransGen Progress.LeavesOut (command.registrationsAt guard base)
      (other.registrationsAt guard base))
    (base : List Argument) (before after : List (Command γ ε)) :
    ReflTransGen Progress.LeavesOut (branches guard base (before ++ command :: after))
      (branches guard base (before ++ other :: after)) := by
  have own : ReflTransGen Progress.LeavesOut
      (command.names.flatMap fun name => command.registrationsAt guard (base ++ [.literal name]))
      (other.names.flatMap fun name => other.registrationsAt guard (base ++ [.literal name])) := by
    -- First what is registered under each name changes, and then the list of names.
    have first := Progress.leavesOut_flatMap command.names fun name _ => each (base ++ [.literal name])
    refine first.trans ?_
    rcases step.names_eq with same | trimmed
    · rw [same]
    · rw [trimmed]
      exact Progress.leavesOut_eraseDups (registrationsAt_apart guard base other) command.names
  have longer := Progress.leavesOut_among own (branches guard base before) (branches guard base after)
  simpa only [branches_eq_flatMap, List.flatMap_append, List.flatMap_cons, List.append_assoc] using longer

/-- Trimming the names of one command in a tree leaves out echoes. -/
theorem leavesOut (step : Trimmed command other) (inherited : Option (Guard γ)) (base : List Argument) :
    ReflTransGen Progress.LeavesOut (command.registrationsAt inherited base)
      (other.registrationsAt inherited base) := by
  induction step generalizing inherited base with
  | names command =>
    obtain ⟨name, aliases, own, executor, usages, subcommands⟩ := command
    rw [withDistinctNames, registrationsAt_mk, registrationsAt_mk]
  | @within command inner other before after placed step ih =>
    obtain ⟨name, aliases, own, executor, usages, subcommands⟩ := command
    obtain rfl : subcommands = before ++ inner :: after := placed
    rw [registrationsAt_mk, registrationsAt_mk]
    have below := step.leavesOut_branches (fun base => ih (Guard.join inherited own) base) base before
      after
    have longer := Progress.leavesOut_among below
      (⟨base, name, CommandTable.ownEntry (Guard.join inherited own) executor⟩ ::
        usages.map (CommandTable.usageRegistration name (Guard.join inherited own) base)) []
    simpa using longer

end Trimmed

end Command

/-! ### Whole compilations -/

namespace CompileUnit

variable {unit other : CompileUnit γ ε} {settings : Settings}

/-- The list of names of one command in a unit was trimmed. -/
inductive Trimmed : CompileUnit γ ε → CompileUnit γ ε → Prop
  | alone {command other : Command γ ε} (step : Command.Trimmed command other) :
      Trimmed (alone command) (alone other)
  | among {command other : Command γ ε} (before after : List (Command γ ε))
      (step : Command.Trimmed command other) :
      Trimmed (together (before ++ command :: after)) (together (before ++ other :: after))

namespace Trimmed

theorem firstOffence?_eq (step : Trimmed unit other) :
    Command.firstOffence? unit.commands = Command.firstOffence? other.commands := by
  cases step with
  | alone step => exact Command.firstOffence?_among [] [] step.offence?_eq
  | among before after step => exact Command.firstOffence?_among before after step.offence?_eq

theorem summary_eq (step : Trimmed unit other) (nodes terminals : Nat) :
    unit.summary nodes terminals = other.summary nodes terminals := by
  cases step with
  | alone step => rw [summary, summary, step.name_eq]
  | among before after step => simp [summary]

theorem leavesOut (step : Trimmed unit other) :
    ReflTransGen Progress.LeavesOut unit.registrations other.registrations := by
  cases step with
  | alone step => exact step.leavesOut none []
  | among before after step =>
    exact step.leavesOut_branches (fun base => step.leavesOut none base) [] before after

/-- Trimming the names of one command changes nothing but the reports of second terminals. -/
theorem compile_eq (step : Trimmed unit other) (settings : Settings) :
    (unit.compile settings).result = (other.compile settings).result ∧
      otherReports (unit.compile settings).log = otherReports (other.compile settings).log := by
  have numbered : (Progress.start : Progress γ ε).trie.Numbering [[]] := Trie.Numbering.empty
  have ends := Progress.endAlike_of_leavesOut step.leavesOut numbered settings
  obtain ⟨progress, progress', same, ⟨error, failed, failed'⟩ | ⟨compiled, compiled'⟩⟩ :=
    compile_coupled step.firstOffence?_eq (Progress.EqButDuplicates.refl _) ends
  · rw [failed, failed']
    exact ⟨rfl, same.reports_eq⟩
  · rw [compiled, compiled', step.summary_eq]
    refine ⟨congrArg Except.ok same.trie_eq, ?_⟩
    rw [otherReports_push, otherReports_push, same.reports_eq, same.trie_eq, same.terminals_eq]

end Trimmed

/-- Repeated names are harmless. If the list of names of any command in a unit is trimmed, and so any number
of times, then the compilation ends with the same error or the same trie, terminals included, under all
settings, and nothing is reported differently but second terminals. And at any point that calls can reach,
compiling a command at a node a second time, with the same enclosing guard, leaves the trie and the number
of terminals as the first time left them and reports second terminals only. -/
theorem repeated_names_harmless (settings : Settings) :
    (∀ unit other : CompileUnit γ ε, ReflTransGen Trimmed unit other →
      (unit.compile settings).result = (other.compile settings).result ∧
        otherReports (unit.compile settings).log = otherReports (other.compile settings).log) ∧
    ∀ (point after : Progress γ ε) (node : NodeId) (inherited : Option (Guard γ)) (command : Command γ ε),
      ReflTransGen (Progress.Change settings) .start point → node.index < point.trie.size →
      Progress.foldAt settings inherited node command point = .ok () after →
        ∃ twice, Progress.foldAt settings inherited node command after = .ok () twice ∧
          twice.EqButDuplicates after := by
  refine ⟨fun unit other steps => ?_, ?_⟩
  · induction steps with
    | refl => exact ⟨rfl, rfl⟩
    | tail _ step ih =>
      obtain ⟨results, reports⟩ := step.compile_eq settings
      exact ⟨ih.1.trans results, ih.2.trans reports⟩
  · intro point after node inherited command reachable valid once
    exact Progress.foldAt_again reachable valid once

/-- An example: a command and a subcommand that both list names twice. The subcommand comes to the node of a
usage. -/
def shouting : Command String String where
  name := "shout"
  aliases := ["yell", "shout", "yell"]
  guard := some (.single "awake")
  executor := none
  usages := [⟨[.literal "twice"], some "shout twice", none⟩]
  subcommands :=
    [{ Command.ofName "twice" with aliases := ["twice"], executor := some "shout again" }]

/-- Trimming first the names of the subcommand and then those of the command leaves the trie as it was, if
the last wins, whereas only two of the ten second terminals are reported still. The command can also be
compiled at the root twice in a row. -/
theorem shouting_trimmed :
    let trimmed := Command.withDistinctNames
      { shouting with subcommands := [(shouting.subcommands.head (by decide)).withDistinctNames] }
    trimmed.names = ["shout", "yell"] ∧
      (∃ trie, ((together [shouting]).compile {}).result = .ok trie ∧
        ((together [trimmed]).compile {}).result = .ok trie ∧
        (trie.terminalAt? [.literal "yell", .literal "twice"]).map (·.executor) =
          some (some "shout again")) ∧
      (duplicates ((together [shouting]).compile {}).log).length = 10 ∧
      (duplicates ((together [trimmed]).compile {}).log).length = 2 ∧
      ∃ once twice, Progress.foldAt {} none .root shouting .start = .ok () once ∧
        Progress.foldAt {} none .root shouting once = .ok () twice ∧ twice.trie = once.trie := by
  intro trimmed
  obtain ⟨units, folds⟩ := @repeated_names_harmless String String {}
  -- The steps are to trim the only subcommand, and then the command.
  have inner : Command.Trimmed shouting
      { shouting with subcommands := [(shouting.subcommands.head (by decide)).withDistinctNames] } :=
    @Command.Trimmed.within _ _ shouting _ _ [] [] rfl (.names _)
  have steps : ReflTransGen Trimmed (together [shouting]) (together [trimmed]) :=
    .tail (.single (.among [] [] inner)) (.among [] [] (.names _))
  obtain ⟨results, -⟩ := units _ _ steps
  obtain ⟨trie, compiled⟩ := (exists_compile_eq_ok_iff {} (together [shouting])).mpr
    ⟨by decide, by decide⟩
  obtain ⟨alone, found⟩ := (exists_compile_eq_ok_iff {} (alone shouting)).mpr ⟨by decide, by decide⟩
  obtain ⟨once, ended, -⟩ := exists_run_of_compile found
  have folded : Progress.foldAt {} none .root shouting .start = .ok () once :=
    (fold_eq {} (CompileUnit.alone shouting)).trans ended
  obtain ⟨twice, again, same⟩ := folds .start once .root none shouting .refl (by decide) folded
  refine ⟨by decide, ⟨trie, compiled, results ▸ compiled, ?_⟩, ?_, ?_, once, twice, folded, again,
    same.trie_eq⟩
  · rw [terminalAt?_eq compiled]
    decide
  · decide +kernel
  · decide +kernel

end CompileUnit

end Dispatch
