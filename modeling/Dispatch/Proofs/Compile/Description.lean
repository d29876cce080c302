import Dispatch.Proofs.Compile.Coupling
import Dispatch.Proofs.Compile.Order
import Dispatch.Proofs.Compile.Ownership
import Dispatch.Proofs.Compile.Refusal
import Dispatch.Proofs.Token
import Dispatch.Proofs.Trie.Description

/-!
# Compiling without descriptions

Descriptions are carried along by a compilation and influence nothing. Commands that differ in nothing but
descriptions are refused for the same reason or fail for want of room at the same point. Otherwise they are
compiled to tries that differ in nothing but descriptions, of which every node belongs to offers that stand at
the same place in the order of registration, and the same is reported on the way.

## Main definitions

* `Argument.undescribed`, `CompileUnit.undescribed` — what is left if descriptions are dropped
* `Event.record` — all that an event tells
* `Progress.EqButDescriptions` — two points of compilations that differ in descriptions

## Main results

* `Command.offersAt_undescribed` — what is offered does not depend on descriptions
* `Progress.coupling_eqButDescriptions` — the steps of a compilation keep states alike
* `CompileUnit.compile_eqButDescriptions` — descriptions do not influence compilation
-/

set_option autoImplicit false

namespace Dispatch

open Argument

variable {γ ε : Type}

/-! ### Dropping descriptions -/

/-- The argument without its description. -/
def Argument.undescribed (a : Argument) : Argument := a.position.argument

/-- The usage without descriptions. -/
def Usage.undescribed (usage : Usage γ ε) : Usage γ ε :=
  { usage with arguments := usage.arguments.map Argument.undescribed }

namespace Command

mutual

/-- The command without descriptions, at any depth. -/
def undescribed : Command γ ε → Command γ ε
  | ⟨name, aliases, guard, executor, usages, subcommands⟩ =>
    ⟨name, aliases, guard, executor, usages.map Usage.undescribed, undescribedAll subcommands⟩

/-- Several commands without descriptions. -/
def undescribedAll : List (Command γ ε) → List (Command γ ε)
  | [] => []
  | command :: rest => command.undescribed :: undescribedAll rest

end

end Command

/-- The commands of a unit without descriptions. -/
def CompileUnit.undescribed : CompileUnit γ ε → CompileUnit γ ε
  | alone command => alone command.undescribed
  | together commands => together (Command.undescribedAll commands)

/-- The offer without descriptions. -/
def Offer.undescribed (offer : Offer γ ε) : Offer γ ε :=
  { offer with path := offer.path.map Argument.undescribed }

theorem Argument.undescribed_eq_iff {a b : Argument} :
    a.undescribed = b.undescribed ↔ a.SamePosition b := by
  cases a <;> cases b <;> simp [undescribed, position, Position.argument, SamePosition]

theorem Argument.map_undescribed_eq_iff {path other : List Argument} :
    path.map undescribed = other.map undescribed ↔ SamePath path other := by
  rw [← List.forall₂_eq_eq_eq, List.forall₂_map_left_iff, List.forall₂_map_right_iff]
  simp only [undescribed_eq_iff]
  exact Iff.rfl

namespace Command

/-! ### Offences and offers -/

theorem usageOffence?_undescribed (name : String) (usages : List (Usage γ ε)) :
    usageOffence? name (usages.map Usage.undescribed) = usageOffence? name usages := by
  have empty : (fun usage : Usage γ ε => usage.arguments.isEmpty) ∘ Usage.undescribed =
      fun usage => usage.arguments.isEmpty := by
    funext usage
    exact List.isEmpty_map
  rw [usageOffence?, usageOffence?, List.findIdx?_map, empty]

mutual

/-- Descriptions do not make a command usable or unusable. -/
theorem offence?_undescribed : ∀ command : Command γ ε, command.undescribed.offence? = command.offence?
  | ⟨name, aliases, own, executor, usages, subcommands⟩ => by
    rw [undescribed, offence?, offence?, usageOffence?_undescribed,
      firstOffence?_undescribed subcommands]

theorem firstOffence?_undescribed : ∀ commands : List (Command γ ε),
    firstOffence? (undescribedAll commands) = firstOffence? commands
  | [] => rfl
  | command :: rest => by
    rw [undescribedAll, firstOffence?, firstOffence?, offence?_undescribed command,
      firstOffence?_undescribed rest]

end

theorem names_undescribed (command : Command γ ε) : command.undescribed.names = command.names := by
  cases command
  rfl

mutual

/-- What a command offers does not depend on descriptions, nor does the order. -/
theorem offersAt_undescribed (enclosing : List (Guard γ)) (base : List Argument) :
    ∀ command : Command γ ε,
      command.undescribed.offersAt enclosing (base.map Argument.undescribed) =
        (command.offersAt enclosing base).map Offer.undescribed
  | ⟨name, aliases, own, executor, usages, subcommands⟩ => by
    rw [undescribed, offersAt, offersAt, List.map_cons, List.map_append, List.map_map, List.map_map,
      offersBelow_undescribed (enclosing ++ own.toList) base subcommands]
    congr 2
    refine List.map_congr_left fun usage _ => ?_
    simp only [Function.comp_apply, Usage.undescribed, Offer.undescribed, List.map_append]

theorem offersBelow_undescribed (enclosing : List (Guard γ)) (base : List Argument) :
    ∀ commands : List (Command γ ε),
      offersBelow enclosing (base.map Argument.undescribed) (undescribedAll commands) =
        (offersBelow enclosing base commands).map Offer.undescribed
  | [] => rfl
  | command :: rest => by
    rw [undescribedAll, offersBelow, offersBelow, List.map_append, List.map_flatMap,
      offersBelow_undescribed enclosing base rest, names_undescribed]
    congr 1
    refine List.flatMap_congr fun name _ => ?_
    have child : base.map Argument.undescribed ++ [literal name] =
        (base ++ [literal name]).map Argument.undescribed := by
      rw [List.map_append]
      rfl
    rw [child, offersAt_undescribed enclosing (base ++ [literal name]) command]

end

end Command

/-- Two offers differ at most in descriptions. -/
structure Offer.EqButDescriptions (offer other : Offer γ ε) : Prop where
  path : SamePath offer.path other.path
  command_eq : offer.command = other.command
  guards_eq : offer.guards = other.guards
  executor_eq : offer.executor = other.executor
  isOwn_eq : offer.isOwn = other.isOwn

theorem Offer.undescribed_eq_iff {offer other : Offer γ ε} :
    offer.undescribed = other.undescribed ↔ offer.EqButDescriptions other := by
  simp only [undescribed, Offer.mk.injEq, map_undescribed_eq_iff]
  constructor
  · rintro ⟨path, command, guards, executor, isOwn⟩
    exact ⟨path, command, guards, executor, isOwn⟩
  · rintro ⟨path, command, guards, executor, isOwn⟩
    exact ⟨path, command, guards, executor, isOwn⟩

theorem Offer.EqButDescriptions.isVoid_eq {offer other : Offer γ ε}
    (alike : offer.EqButDescriptions other) : offer.isVoid = other.isVoid := by
  rw [isVoid, isVoid, alike.guards_eq, alike.executor_eq]

theorem Offer.EqButDescriptions.isPlaceholder_eq {offer other : Offer γ ε}
    (alike : offer.EqButDescriptions other) : offer.isPlaceholder = other.isPlaceholder := by
  rw [isPlaceholder, isPlaceholder, alike.guards_eq, alike.executor_eq, alike.isOwn_eq]

theorem Offer.EqButDescriptions.registration {offer other : Offer γ ε}
    (alike : offer.EqButDescriptions other) :
    offer.registration.Alike SamePosition other.registration := by
  refine ⟨alike.path, alike.command_eq, ?_⟩
  simp only [Offer.registration, Offer.terminal?, alike.guards_eq, alike.executor_eq, alike.isOwn_eq]

/-! ### What is reported -/

/-- All that an event tells: how important it is, where it comes from, what happened, and the fields. -/
def Event.record (event : Event) : Level × String × String × List (String × FieldValue) :=
  (event.level, event.target, event.message, event.fields)

theorem Event.record_createdNode_congr {a b : Argument} (same : a.SamePosition b)
    (parent child : NodeId) :
    (Event.createdNode parent child a).record = (Event.createdNode parent child b).record := by
  simp only [record, level, target, message, fields, same.display_eq]

/-! ### Compiling side by side -/

namespace Progress

variable {settings : Settings} {progress other : Progress γ ε}

/-- Two points of compilations differ at most in descriptions. -/
structure EqButDescriptions (progress other : Progress γ ε) : Prop where
  trie : progress.trie.EqButDescriptions other.trie
  terminals_eq : progress.terminals = other.terminals
  records_eq : progress.log.map Event.record = other.log.map Event.record

namespace EqButDescriptions

theorem refl (progress : Progress γ ε) : progress.EqButDescriptions progress :=
  ⟨Trie.EqButDescriptions.refl _, rfl, rfl⟩

theorem ensureChild (alike : progress.EqButDescriptions other) (parent : NodeId) {a b : Argument}
    (same : a.SamePosition b) :
    EndAlike EqButDescriptions (Progress.ensureChild parent a progress)
      (Progress.ensureChild parent b other) := by
  have size := alike.trie.size_eq
  rw [Progress.ensureChild_eq, Progress.ensureChild_eq, ← alike.trie.findChild?_eq parent same]
  cases progress.trie.findChild? parent a with
  | some id => exact .ok rfl alike
  | none =>
    by_cases fits : progress.trie.size < NodeId.capacity
    · -- Both append a node in the same slot, and the report names it alike.
      have fits' : other.trie.size < NodeId.capacity := size ▸ fits
      have slot : (⟨other.trie.size, fits'⟩ : NodeId) = ⟨progress.trie.size, fits⟩ :=
        NodeId.ext size.symm
      simp only [dif_pos fits, dif_pos fits', slot]
      refine .ok rfl ⟨alike.trie.insertChild same rfl size, alike.terminals_eq, ?_⟩
      rw [Array.map_push, Array.map_push, alike.records_eq, Event.record_createdNode_congr same]
    · have full : ¬ other.trie.size < NodeId.capacity := size ▸ fits
      simp only [dif_neg fits, dif_neg full]
      exact .error (congrArg _ size) alike

theorem putTerminal (alike : progress.EqButDescriptions other) (command : String) (id : NodeId)
    (terminal : Terminal γ ε) :
    (progress.putTerminal settings command id terminal).EqButDescriptions
      (other.putTerminal settings command id terminal) := by
  unfold Progress.putTerminal
  rw [← alike.trie.terminal?_eq]
  cases progress.trie.terminal? id with
  | none =>
    exact ⟨alike.trie.setTerminal id terminal, congrArg (· + 1) alike.terminals_eq, alike.records_eq⟩
  | some occupant =>
    refine ⟨?_, alike.terminals_eq, ?_⟩
    · cases settings.precedence with
      | lastWins => exact alike.trie.setTerminal id terminal
      | keepFirst => exact alike.trie
    · simp only [Array.map_push, alike.records_eq]

theorem putPlaceholder (alike : progress.EqButDescriptions other) (id : NodeId)
    (terminal : Terminal γ ε) :
    (progress.putPlaceholder id terminal).EqButDescriptions (other.putPlaceholder id terminal) := by
  unfold Progress.putPlaceholder
  rw [← alike.trie.terminal?_eq]
  cases progress.trie.terminal? id with
  | none =>
    exact ⟨alike.trie.setTerminal id terminal, congrArg (· + 1) alike.terminals_eq, alike.records_eq⟩
  | some occupant => exact alike

theorem place (alike : progress.EqButDescriptions other) (command : String) (id : NodeId)
    (entry : Option (Entry γ ε)) :
    (Progress.place settings command id entry progress).EqButDescriptions
      (Progress.place settings command id entry other) := by
  rcases entry with _ | terminal | terminal
  · exact alike
  · exact alike.putTerminal command id terminal
  · exact alike.putPlaceholder id terminal

end EqButDescriptions

/-- The steps of a compilation keep states alike if the arguments denote the same positions. -/
theorem coupling_eqButDescriptions (settings : Settings) :
    Coupling settings settings SamePosition (EqButDescriptions : Progress γ ε → Progress γ ε → Prop) where
  ensureChild parent _ _ alike same := alike.ensureChild parent same
  place command id entry alike := alike.place command id entry

end Progress

/-! ### Owners -/

/-- Of offers that are alike two by two, the owners of a node are two that are alike, chosen at the same
place, or there are none. -/
theorem exists_owners_of_pairs {pairs : List (Offer γ ε × Offer γ ε)} {path otherPath : List Argument}
    (precedence : Precedence) (alike : ∀ pair ∈ pairs, pair.1.EqButDescriptions pair.2)
    (same : SamePath path otherPath) :
    ∃ chosen : Option (Offer γ ε × Offer γ ε), (∀ pair ∈ chosen, pair ∈ pairs) ∧
      owner? precedence path (pairs.map Prod.fst) = chosen.map Prod.fst ∧
      owner? precedence otherPath (pairs.map Prod.snd) = chosen.map Prod.snd := by
  have there (pair) (mem : pair ∈ pairs) :
      SamePath otherPath pair.2.path ↔ SamePath path pair.1.path := by
    have ends := (alike pair mem).path
    exact ⟨fun h => same.trans (h.trans ends.symm), fun h => same.symm.trans (h.trans ends)⟩
  -- Which pairs matter for the path, and which of these are placeholders, can be seen on either side.
  let relevant := pairs.filter fun pair => decide (SamePath path pair.1.path) && !pair.1.isVoid
  have inside {pair} (mem : pair ∈ relevant) : pair ∈ pairs := List.mem_of_mem_filter mem
  have first : offersTo path (pairs.map Prod.fst) = relevant.map Prod.fst := by
    rw [offersTo, List.filter_map]
    rfl
  have second : offersTo otherPath (pairs.map Prod.snd) = relevant.map Prod.snd := by
    rw [offersTo, List.filter_map]
    refine congrArg _ (List.filter_congr fun pair mem => ?_)
    simp only [Function.comp_apply, there pair mem, (alike pair mem).isVoid_eq]
  cases precedence with
  | lastWins =>
    have filtered (kept : Bool → Bool) :
        (relevant.map Prod.snd).filter (fun offer => kept offer.isPlaceholder) =
          (relevant.filter fun pair => kept pair.1.isPlaceholder).map Prod.snd := by
      rw [List.filter_map]
      refine congrArg _ (List.filter_congr fun pair mem => ?_)
      rw [Function.comp_apply, (alike pair (inside mem)).isPlaceholder_eq]
    have claims : (relevant.map Prod.snd).filter (!·.isPlaceholder) =
        (relevant.filter (!·.1.isPlaceholder)).map Prod.snd := filtered not
    have placeholders : (relevant.map Prod.snd).filter (·.isPlaceholder) =
        (relevant.filter (·.1.isPlaceholder)).map Prod.snd := filtered id
    refine ⟨(relevant.filter (!·.1.isPlaceholder)).getLast?.or
      (relevant.filter (·.1.isPlaceholder)).head?, ?_, ?_, ?_⟩
    · intro pair mem
      rcases Option.or_eq_some_iff.mp mem with last | ⟨-, first⟩
      · exact inside (List.mem_of_mem_filter (List.mem_of_getLast? last))
      · exact inside (List.mem_of_mem_filter (List.mem_of_head? first))
    · rw [owner?, first, List.filter_map, List.filter_map, List.getLast?_map, List.head?_map,
        Option.map_or]
      rfl
    · rw [owner?, second, claims, placeholders, List.getLast?_map, List.head?_map, Option.map_or]
  | keepFirst =>
    refine ⟨relevant.head?, fun pair mem => inside (List.mem_of_head? mem), ?_, ?_⟩
    · rw [owner?, first, List.head?_map]
    · rw [owner?, second, List.head?_map]

namespace CompileUnit

variable {settings : Settings} {unit other : CompileUnit γ ε}

/-! ### Whole compilations -/

theorem offers_undescribed (unit : CompileUnit γ ε) :
    unit.undescribed.offers = unit.offers.map Offer.undescribed := by
  cases unit with
  | alone command => exact command.offersAt_undescribed [] []
  | together commands => exact Command.offersBelow_undescribed [] [] commands

theorem summary_undescribed (unit : CompileUnit γ ε) (nodes terminals : Nat) :
    unit.undescribed.summary nodes terminals = unit.summary nodes terminals := by
  cases unit with
  | alone command =>
    cases command
    rfl
  | together commands =>
    have length : (Command.undescribedAll commands).length = commands.length := by
      induction commands with
      | nil => rfl
      | cons command rest ih => rw [Command.undescribedAll, List.length_cons, List.length_cons, ih]
    rw [undescribed, summary, summary, length]

theorem offers_alike (same : unit.undescribed = other.undescribed) :
    List.Forall₂ Offer.EqButDescriptions unit.offers other.offers := by
  have offers : unit.offers.map Offer.undescribed = other.offers.map Offer.undescribed := by
    rw [← offers_undescribed, ← offers_undescribed, same]
  rw [← List.forall₂_eq_eq_eq, List.forall₂_map_left_iff, List.forall₂_map_right_iff] at offers
  exact offers.imp fun _ _ => Offer.undescribed_eq_iff.mp

theorem commands_undescribed (unit : CompileUnit γ ε) :
    unit.undescribed.commands = Command.undescribedAll unit.commands := by
  cases unit <;> rfl

theorem firstOffence?_congr (same : unit.undescribed = other.undescribed) :
    Command.firstOffence? unit.commands = Command.firstOffence? other.commands := by
  rw [← Command.firstOffence?_undescribed unit.commands, ← commands_undescribed, same,
    commands_undescribed, Command.firstOffence?_undescribed]

theorem summary_congr (same : unit.undescribed = other.undescribed) (nodes terminals : Nat) :
    unit.summary nodes terminals = other.summary nodes terminals := by
  rw [← summary_undescribed unit, same, summary_undescribed]

/-- Processing what commands register that differ in descriptions ends alike. -/
theorem registerAll_alike (same : unit.undescribed = other.undescribed) (settings : Settings) :
    Progress.EndAlike Progress.EqButDescriptions (Progress.registerAll settings unit.registrations .start)
      (Progress.registerAll settings other.registrations .start) := by
  refine (Progress.coupling_eqButDescriptions settings).registerAll (Progress.EqButDescriptions.refl _) ?_
  rw [registrations_eq, registrations_eq, List.forall₂_map_left_iff, List.forall₂_map_right_iff]
  exact (offers_alike same).imp fun _ _ alike => alike.registration

/-- Every node belongs to offers at the same place in the order of registration. -/
theorem owner?_rel (same : unit.undescribed = other.undescribed) {path otherPath : List Argument}
    (samePath : SamePath path otherPath) (precedence : Precedence) :
    Option.Rel (fun offer offer' => (offer, offer') ∈ unit.offers.zip other.offers)
      (owner? precedence path unit.offers) (owner? precedence otherPath other.offers) := by
  have offers := offers_alike same
  have length := offers.length_eq
  obtain ⟨chosen, among, owns, owns'⟩ := exists_owners_of_pairs precedence
    (fun pair mem => List.forall₂_zip offers mem) samePath
  rw [List.map_fst_zip length.le] at owns
  rw [List.map_snd_zip length.ge] at owns'
  rw [owns, owns']
  cases chosen with
  | none => exact .none
  | some pair => exact .some (among pair rfl)

/-- Commands that differ in nothing but the descriptions of arguments compile alike under all settings. Both
compilations fail with the same error or both succeed, and they report the same. If they succeed, then the
tries differ in nothing but descriptions: the same slots hold arguments of the same positions, the same
children and the same terminals. Hence they have the same outline and the same layout. Paths that differ in
descriptions lead to the same node, and the terminal there is that of offers which the two units make at the
same place. -/
theorem compile_eqButDescriptions (settings : Settings) (same : unit.undescribed = other.undescribed) :
    let compilation := unit.compile settings
    let otherCompilation := other.compile settings
    (∀ error, compilation.result = .error error ↔ otherCompilation.result = .error error) ∧
      compilation.log.map Event.record = otherCompilation.log.map Event.record ∧
      ∀ trie, compilation.result = .ok trie → ∃ otherTrie, otherCompilation.result = .ok otherTrie ∧
        trie.EqButDescriptions otherTrie ∧ trie.text = otherTrie.text ∧ trie.sameLayout otherTrie = true ∧
        ∀ path otherPath, SamePath path otherPath →
          trie.lookup? path = otherTrie.lookup? otherPath ∧
          trie.terminalAt? path = (owner? settings.precedence path unit.offers).bind Offer.terminal? ∧
          otherTrie.terminalAt? otherPath =
            (owner? settings.precedence otherPath other.offers).bind Offer.terminal? ∧
          Option.Rel (fun offer offer' => (offer, offer') ∈ unit.offers.zip other.offers)
            (owner? settings.precedence path unit.offers)
            (owner? settings.precedence otherPath other.offers) := by
  intro compilation otherCompilation
  -- The errors, the reports and the tries are compared first; the rest follows for tries that are alike.
  have ends : (∀ error, compilation.result = .error error ↔ otherCompilation.result = .error error) ∧
      compilation.log.map Event.record = otherCompilation.log.map Event.record ∧
      ∀ trie, compilation.result = .ok trie →
        ∃ otherTrie, otherCompilation.result = .ok otherTrie ∧ trie.EqButDescriptions otherTrie := by
    obtain ⟨progress, progress', alike, ⟨error, failed, failed'⟩ | ⟨compiled, compiled'⟩⟩ :=
      compile_coupled (firstOffence?_congr same) (Progress.EqButDescriptions.refl _)
        (registerAll_alike same settings)
    · simp [compilation, otherCompilation, failed, failed', alike.records_eq]
    · refine ⟨by simp [compilation, otherCompilation, compiled, compiled'], ?_, ?_⟩
      · simp only [compilation, otherCompilation, compiled, compiled', Array.map_push, alike.records_eq,
          alike.trie.size_eq, alike.terminals_eq, summary_congr same]
      · intro trie succeeded
        obtain rfl : progress.trie = trie := by simpa [compilation, compiled] using succeeded
        exact ⟨progress'.trie, by simp [otherCompilation, compiled'], alike.trie⟩
  refine ⟨ends.1, ends.2.1, fun trie compiled => ?_⟩
  obtain ⟨otherTrie, otherCompiled, alike⟩ := ends.2.2 trie compiled
  refine ⟨otherTrie, otherCompiled, alike, alike.text_eq, alike.sameLayout, ?_⟩
  intro path otherPath samePath
  exact ⟨alike.lookup?_eq samePath, terminalAt?_eq compiled path, terminalAt?_eq otherCompiled otherPath,
    owner?_rel same samePath settings.precedence⟩

/-- Without its descriptions, `fares` is compiled to the same outline, and the node whose argument lost its
description is found under either way of describing it. -/
theorem fares_undescribed : fares.undescribed = fares.undescribed.undescribed ∧
    ∃ trie otherTrie, (fares.compile {}).result = .ok trie ∧
      (fares.undescribed.compile {}).result = .ok otherTrie ∧ trie.text = otherTrie.text ∧
      trie.argument? ⟨1, by decide⟩ = some (.typed "to" .word (some "a town")) ∧
      otherTrie.argument? ⟨1, by decide⟩ = some (.typed "to" .word none) ∧
      trie.lookup? [.typed "to" .word (some "a place")] =
        otherTrie.lookup? [.typed "to" .word (some "a village")] := by
  have same : fares.undescribed = fares.undescribed.undescribed := rfl
  obtain ⟨trie, compiled⟩ := (exists_compile_eq_ok_iff {} fares).mpr ⟨by decide, by decide⟩
  obtain ⟨-, -, agree⟩ := compile_eqButDescriptions {} same
  obtain ⟨otherTrie, otherCompiled, -, text, -, paths⟩ := agree trie compiled
  refine ⟨same, trie, otherTrie, compiled, otherCompiled, text, ?_, ?_, ?_⟩
  · exact eq_of_map_result (·.argument? ⟨1, by decide⟩) compiled (by decide +kernel)
  · exact eq_of_map_result (·.argument? ⟨1, by decide⟩) otherCompiled (by decide +kernel)
  · exact (paths _ _ (by decide)).1

end CompileUnit

end Dispatch
