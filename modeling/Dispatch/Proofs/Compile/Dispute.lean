import Dispatch.Proofs.Compile.InPlace
import Dispatch.Proofs.Compile.Lockstep
import Dispatch.Proofs.Compile.Points

/-!
# Disputed nodes

A node is disputed if a compilation reports that a terminal came to it where one stood already. The
rule of precedence matters at disputed nodes only: at any other node, everything that is offered after
the first offer is a placeholder, so that the first offer owns the node under both rules. Hence the
compilations under the two rules differ at most at nodes that their logs name, and in what the reports
of these nodes say about the rule.

## Main definitions

* `Disputed` — a log reports a second terminal at a node
* `Event.AgreeButAction` — two events that differ at most in how a dispute was settled

## Main results

* `Progress.Change.log_prefix` — a call only adds to the log
* `Progress.placeholders_of_undisputed` — what is offered at a node that is not disputed
* `CompileUnit.owner?_of_undisputed` — such a node belongs to the first offer under both rules
* `CompileUnit.precedences_agree` — the two rules differ only where the log says so
-/

set_option autoImplicit false

namespace Dispatch

open Argument

variable {γ ε : Type} {settings otherSettings : Settings} {id : NodeId}

/-- The log reports that a terminal came to a node where one stood already. -/
def Disputed (log : Array Event) (id : NodeId) : Prop :=
  ∃ isWarning command precedence, Event.duplicateTerminal isWarning command id precedence ∈ log

/-- Whether the event reports a second terminal at a node. -/
def Event.disputes (id : NodeId) : Event → Bool
  | .duplicateTerminal _ _ node _ => node = id
  | _ => false

theorem disputed_iff_any {log : Array Event} : Disputed log id ↔ log.any (Event.disputes id) = true := by
  rw [Array.any_eq_true']
  constructor
  · rintro ⟨isWarning, command, precedence, mem⟩
    exact ⟨_, mem, decide_eq_true rfl⟩
  · rintro ⟨event, mem, disputes⟩
    cases event with
    | duplicateTerminal isWarning command node precedence =>
      obtain rfl : node = id := of_decide_eq_true disputes
      exact ⟨isWarning, command, precedence, mem⟩
    | _ => exact absurd disputes Bool.false_ne_true

instance (log : Array Event) (id : NodeId) : Decidable (Disputed log id) :=
  decidable_of_iff _ disputed_iff_any.symm

/-- Two events differ at most in the field that tells how a dispute was settled, and only events about
a second terminal differ at all. -/
structure Event.AgreeButAction (event other : Event) : Prop where
  level_eq : event.level = other.level
  target_eq : event.target = other.target
  message_eq : event.message = other.message
  fields : List.Forall₂ (fun field otherField => field.1 = otherField.1 ∧
    (field.1 ≠ "action" → field.2 = otherField.2)) event.fields other.fields
  eq_of_message_ne : event.message ≠ "Duplicate terminal" → event = other

/-- Settings of the same loudness report the same but for the rule by which disputes are settled. -/
theorem Event.Counterpart.agreeButAction {event other : Event}
    (counterpart : Counterpart settings otherSettings event other)
    (loudness : settings.warnOnDuplicate = otherSettings.warnOnDuplicate) :
    AgreeButAction event other := by
  cases counterpart with
  | same event plain =>
    exact ⟨rfl, rfl, rfl, List.forall₂_same.mpr fun _ _ => ⟨rfl, fun _ => rfl⟩, fun _ => rfl⟩
  | duplicate command node =>
    rw [loudness]
    refine ⟨rfl, rfl, rfl, ?_, fun differs => absurd rfl differs⟩
    exact .cons ⟨rfl, fun _ => rfl⟩ (.cons ⟨rfl, fun _ => rfl⟩
      (.cons ⟨rfl, fun differs => absurd rfl differs⟩ .nil))

/-- Logs that correspond name the same disputed nodes. -/
theorem LogsInStep.disputed_iff {log otherLog : Array Event}
    (inStep : LogsInStep settings otherSettings log otherLog) (id : NodeId) :
    Disputed log id ↔ Disputed otherLog id := by
  simp only [Disputed, ← Array.mem_toList_iff]
  unfold LogsInStep at inStep
  generalize log.toList = events, otherLog.toList = otherEvents at inStep ⊢
  induction inStep with
  | nil => exact Iff.rfl
  | cons counterpart _ ih =>
    simp only [List.mem_cons, exists_or, ih]
    refine or_congr_left ?_
    cases counterpart with
    | same event plain => exact Iff.rfl
    | duplicate command node => simp

namespace Progress

variable {progress after next : Progress γ ε} {path : List Argument} {paths : List (List Argument)}
  {registration : Registration γ ε} {registrations : List (Registration γ ε)} {offer : Offer γ ε}

/-! ### Reports are not taken back -/

theorem ensureChild_log_prefix {parent : NodeId} {argument : Argument}
    (ensured : ensureChild parent argument progress = .ok id after) :
    progress.log.toList <+: after.log.toList := by
  rcases ensureChild_records ensured with ⟨-, rfl⟩ | ⟨-, free, rfl⟩
  · exact List.prefix_rfl
  · rw [Array.toList_push]
    exact List.prefix_append _ _

theorem place_log_prefix (settings : Settings) (command : String) (id : NodeId)
    (entry : Option (Entry γ ε)) (progress : Progress γ ε) :
    progress.log.toList <+: (place settings command id entry progress).log.toList := by
  rcases place_records settings command id entry progress with
    same | ⟨terminal, -, filled⟩ | ⟨trie, -, -, reported⟩
  · rw [same]
  · rw [filled]
  · rw [reported, Array.toList_push]
    exact List.prefix_append _ _

/-- A call only adds to the log. -/
theorem Change.log_prefix (change : Change settings progress after) :
    progress.log.toList <+: after.log.toList := by
  cases change with
  | child valid ensured => exact ensureChild_log_prefix ensured
  | terminal command terminal valid =>
    exact place_log_prefix settings command _ (some (.terminal terminal)) progress
  | placeholder terminal valid =>
    exact place_log_prefix settings "" _ (some (.placeholder terminal)) progress

theorem log_prefix_of_reachable (reachable : Relation.ReflTransGen (Change settings) progress after) :
    progress.log.toList <+: after.log.toList := by
  induction reachable with
  | refl => exact List.prefix_rfl
  | tail _ change ih => exact ih.trans change.log_prefix

/-- A node that is disputed stays so. -/
theorem disputed_of_registerAll
    (ended : registerAll settings registrations progress = .ok () after)
    (disputed : Disputed progress.log id) : Disputed after.log id := by
  obtain ⟨isWarning, command, precedence, mem⟩ := disputed
  have grown := log_prefix_of_reachable (passes_of_registerAll ended).reachable
  exact ⟨isWarning, command, precedence,
    Array.mem_toList_iff.mp (grown.subset (Array.mem_toList_iff.mpr mem))⟩

/-! ### What is offered at a node that is not disputed -/

/-- Where a terminal stands, a further offer that is no placeholder makes the node disputed. -/
theorem disputed_of_register (numbered : progress.trie.Numbering paths)
    (proper : offer.isVoid = false) (claims : offer.isPlaceholder = false)
    (taken : (progress.trie.terminalAt? offer.path).isSome)
    (processed : register settings offer.registration progress = .ok () next) :
    ∃ id, next.trie.lookup? offer.path = some id ∧ Disputed next.log id := by
  have walk := ensurePath_reaches numbered Trie.lookup?_nil offer.path
  have here : offer.registration.path = offer.path := rfl
  rw [register_eq, here] at processed
  split at processed
  · rename_i id between walked
    rw [walked] at walk
    obtain ⟨-, found, kept⟩ := walk
    rw [List.nil_append] at found
    injection processed with _ placed
    -- The terminal was there before the path was walked, and is there still.
    have standing : (between.trie.terminal? id).isSome := by
      rw [← kept, Trie.terminalAt?, found] at taken
      exact taken
    obtain ⟨occupant, stands⟩ := Option.isSome_iff_exists.mp standing
    obtain ⟨terminal, offered⟩ := Option.isSome_iff_exists.mp (Offer.isSome_terminal?_iff.mpr proper)
    have entry : offer.registration.entry = some (.terminal terminal) := by
      rw [Offer.isPlaceholder_eq proper] at claims
      simp [Offer.registration, offered, claims]
    refine ⟨id, ?_, settings.warnOnDuplicate, offer.registration.command, settings.precedence, ?_⟩
    · rw [← placed]
      exact place_keeps _ _ _ _ _ found
    · rw [← placed, entry]
      simp [place, putTerminal, stands]
  · simp at processed

theorem isSome_settle (precedence : Precedence) (standing : Option (Terminal γ ε))
    (entry : Option (Entry γ ε)) :
    (settle precedence standing entry).isSome = (standing.isSome || entry.isSome) := by
  rcases entry with _ | newcomer | newcomer
  · rw [Option.isSome_none, Bool.or_false]
    cases standing <;> rfl
  · cases standing <;> cases precedence <;> rfl
  · cases standing <;> rfl

/-- An offer fills the node that it is made for, and empties none. -/
theorem isSome_occupant_singleton {precedence : Precedence} {standing : Option (Terminal γ ε)} :
    (occupant precedence path [offer.registration] standing).isSome ↔
      standing.isSome ∨ SamePath path offer.path ∧ offer.isVoid = false := by
  have entered : offer.registration.entry.isSome ↔ offer.isVoid = false := by
    rw [Offer.registration, Option.isSome_map, Offer.isSome_terminal?_iff]
  have here : offer.registration.path = offer.path := rfl
  rw [occupant, List.foldl_cons, List.foldl_nil, here]
  by_cases same : SamePath path offer.path
  · rw [if_pos same, isSome_settle, Bool.or_eq_true, entered, and_iff_right same]
  · rw [if_neg same, or_iff_left fun relevant => same relevant.1]

/-- If a node is not disputed at the end, then everything that was offered there after the first offer
is a placeholder; and so is the first offer, if the node had a terminal from the beginning. -/
theorem placeholders_of_undisputed {offers : List (Offer γ ε)}
    (numbered : progress.trie.Numbering paths)
    (ended : registerAll settings (offers.map Offer.registration) progress = .ok () after)
    (found : after.trie.lookup? path = some id) (undisputed : ¬ Disputed after.log id) :
    ((progress.trie.terminalAt? path).isSome →
        ∀ offer ∈ offersTo path offers, offer.isPlaceholder = true) ∧
      ∀ offer ∈ (offersTo path offers).tail, offer.isPlaceholder = true := by
  -- The first part is what carries the second one: after an offer, the node has a terminal for the rest.
  induction offers generalizing progress paths with
  | nil => simp [offersTo]
  | cons offer offers ih =>
    rw [List.map_cons, registerAll_cons] at ended
    split at ended
    · rename_i next processed
      have step := register_reaches numbered settings offer.registration
      rw [processed] at step
      obtain ⟨numbered', settled⟩ := step
      obtain ⟨others, later⟩ := ih numbered' ended
      by_cases relevant : SamePath path offer.path ∧ offer.isVoid = false
      · obtain ⟨same, proper⟩ := relevant
        have first : offersTo path (offer :: offers) = offer :: offersTo path offers := by
          simp [offersTo, same, proper]
        -- Behind the offer the node has a terminal, so the others are placeholders.
        have filled : (next.trie.terminalAt? path).isSome := by
          rw [settled, isSome_occupant_singleton]
          exact Or.inr ⟨same, proper⟩
        rw [first]
        refine ⟨fun taken => List.forall_mem_cons.mpr ⟨?_, others filled⟩, others filled⟩
        -- If it had one before, then the offer is a placeholder too, or it would be disputed.
        by_contra claims
        rw [Trie.terminalAt?, Trie.lookup?_congr same] at taken
        obtain ⟨node, there, disputed⟩ := disputed_of_register numbered proper
          (Bool.eq_false_of_not_eq_true claims) taken processed
        have led : after.trie.lookup? path = some node := by
          rw [Trie.lookup?_congr same]
          exact registerAll_keeps ended there
        obtain rfl : node = id := Option.some_inj.mp (led.symm.trans found)
        exact undisputed (disputed_of_registerAll ended disputed)
      · have elsewhere : offersTo path (offer :: offers) = offersTo path offers := by
          rw [offersTo, List.filter_cons_of_neg (by simpa using relevant)]
          rfl
        rw [elsewhere]
        refine ⟨fun taken => others ?_, later⟩
        rw [settled, isSome_occupant_singleton]
        exact Or.inl taken
    · simp at ended

end Progress

/-! ### The two rules of precedence -/

/-- If everything behind the first offer is a placeholder, then the first offer owns the node, whatever
the rule of precedence is. -/
theorem owner?_eq_head? {precedence : Precedence} {path : List Argument} {offers : List (Offer γ ε)}
    (held : ∀ offer ∈ (offersTo path offers).tail, offer.isPlaceholder = true) :
    owner? precedence path offers = (offersTo path offers).head? := by
  cases precedence with
  | keepFirst => rfl
  | lastWins =>
    unfold owner?
    revert held
    cases offersTo path offers with
    | nil => exact fun _ => rfl
    | cons first others =>
      intro held
      have noClaim : others.filter (!·.isPlaceholder) = [] :=
        List.filter_eq_nil_iff.mpr fun offer mem => by simp [held offer mem]
      -- The first offer is the last claim, or else the first placeholder.
      cases claims : first.isPlaceholder with
      | false => simp [claims, noClaim]
      | true => simp [claims, noClaim]

namespace CompileUnit

variable {unit : CompileUnit γ ε} {trie : Trie γ ε} {path : List Argument}

/-- What a successful compilation reports: what was reported on the way, and the end of it. -/
theorem exists_log_of_compile (compiled : (unit.compile settings).result = .ok trie) :
    ∃ progress, Progress.registerAll settings unit.registrations .start = .ok () progress ∧
      progress.trie = trie ∧ (unit.compile settings).log =
        progress.log.push (unit.summary trie.size progress.terminals) := by
  obtain ⟨progress, ended, rfl⟩ := exists_run_of_compile compiled
  refine ⟨progress, ended, rfl, ?_⟩
  rw [compile_eq_of_usable (usable_of_compile compiled), Trie.compile, ended]

/-- A node that is not disputed belongs to the first offer that is made for it, under both rules. -/
theorem owner?_of_undisputed (compiled : (unit.compile settings).result = .ok trie)
    (found : trie.lookup? path = some id) (undisputed : ¬ Disputed (unit.compile settings).log id)
    (precedence : Precedence) :
    owner? precedence path unit.offers = (offersTo path unit.offers).head? := by
  obtain ⟨progress, ended, rfl, log⟩ := exists_log_of_compile compiled
  have settled : ¬ Disputed progress.log id := by
    rintro ⟨isWarning, command, rule, mem⟩
    exact undisputed ⟨isWarning, command, rule, log ▸ Array.mem_push_of_mem _ mem⟩
  have numbered : (Progress.start : Progress γ ε).trie.Numbering [[]] := Trie.Numbering.empty
  rw [registrations_eq] at ended
  exact owner?_eq_head? (Progress.placeholders_of_undisputed numbered ended found settled).2

/-- A node that is not disputed has the same terminal under all settings. -/
theorem terminal?_eq_of_undisputed {other : Trie γ ε} (same : trie.SameFrame other)
    (compiled : (unit.compile settings).result = .ok trie)
    (otherCompiled : (unit.compile otherSettings).result = .ok other)
    (undisputed : ¬ Disputed (unit.compile settings).log id) :
    trie.terminal? id = other.terminal? id := by
  by_cases inside : id.index < trie.size
  · -- A node is the end of a path, and who owns it does not depend on the settings.
    obtain ⟨path, found⟩ := (numbering_of_compile compiled).exists_lookup? inside
    have otherFound : other.lookup? path = some id := same.lookup?_eq path ▸ found
    have here (trie : Trie γ ε) (found : trie.lookup? path = some id) :
        trie.terminal? id = trie.terminalAt? path := by
      rw [Trie.terminalAt?, found]
      rfl
    have owns := owner?_of_undisputed compiled found undisputed
    calc trie.terminal? id
        = (owner? settings.precedence path unit.offers).bind Offer.terminal? := by
          rw [here trie found, terminalAt?_eq compiled]
      _ = (owner? otherSettings.precedence path unit.offers).bind Offer.terminal? := by
          rw [owns, owns]
      _ = other.terminal? id := by rw [here other otherFound, terminalAt?_eq otherCompiled]
  · have outside : trie.size ≤ id.index := not_lt.mp inside
    rw [Trie.terminal?_eq_none outside, Trie.terminal?_eq_none (same.size_eq ▸ outside)]

/-- Compilations of the same loudness end with the same report. -/
theorem exists_back?_eq (loudness : settings.warnOnDuplicate = otherSettings.warnOnDuplicate)
    {other : Trie γ ε} (compiled : (unit.compile settings).result = .ok trie)
    (otherCompiled : (unit.compile otherSettings).result = .ok other) :
    ∃ terminals, (unit.compile settings).log.back? = some (unit.summary trie.size terminals) ∧
      (unit.compile otherSettings).log.back? = some (unit.summary trie.size terminals) := by
  obtain ⟨progress, -, -, log⟩ := exists_log_of_compile compiled
  obtain ⟨otherProgress, -, -, otherLog⟩ := exists_log_of_compile otherCompiled
  have steps := (unit.compile_inStep settings otherSettings).log
  -- The logs correspond from the end, too, and their last events are no disputes.
  rw [log, otherLog, LogsInStep, Array.toList_push, Array.toList_push,
    ← List.forall₂_reverse_iff, List.reverse_append, List.reverse_append] at steps
  have ends := ((List.forall₂_cons.mp steps).1.agreeButAction loudness).eq_of_message_ne
    (by cases unit <;> simp [summary, Event.message])
  refine ⟨progress.terminals, ?_, ?_⟩
  · rw [log, Array.back?_push]
  · rw [otherLog, Array.back?_push, ends]

/-- The two rules of precedence, at the same loudness: the compilations fail alike or give tries that
differ in their terminals only; the numbers of nodes and terminals that they report are the same; they
report the same events but for the action that was taken in a dispute; and a node that is not disputed
belongs to the first offer that was made for it in both. So without disputes the tries are the same. -/
theorem precedences_agree (unit : CompileUnit γ ε) (warns : Bool) :
    let last := unit.compile ⟨.lastWins, warns⟩
    let first := unit.compile ⟨.keepFirst, warns⟩
    List.Forall₂ Event.AgreeButAction last.log.toList first.log.toList ∧
      (∀ error, last.result = .error error ↔ first.result = .error error) ∧
      (∀ id, Disputed last.log id ↔ Disputed first.log id) ∧
      ∀ trie, last.result = .ok trie → ∃ other, first.result = .ok other ∧
        trie.SameFrame other ∧
        (∃ terminals, last.log.back? = some (unit.summary trie.size terminals) ∧
          first.log.back? = some (unit.summary other.size terminals)) ∧
        (∀ id, ¬ Disputed last.log id → trie.terminal? id = other.terminal? id ∧
          ∀ path, trie.lookup? path = some id → ∀ precedence,
            owner? precedence path unit.offers = (offersTo path unit.offers).head?) ∧
        ((∀ id, ¬ Disputed last.log id) → trie = other) := by
  intro last first
  have steps : Compilation.InStep ⟨.lastWins, warns⟩ ⟨.keepFirst, warns⟩ last first :=
    unit.compile_inStep _ _
  refine ⟨?_, steps.error_iff, steps.log.disputed_iff, ?_⟩
  · exact List.Forall₂.imp (fun _ _ counterpart => counterpart.agreeButAction rfl) steps.log
  intro trie compiled
  -- The frames are the same, so only terminals are left to be compared.
  obtain ⟨other, otherCompiled, same⟩ := steps.frame trie compiled
  have terminals (id : NodeId) (undisputed : ¬ Disputed last.log id) :
      trie.terminal? id = other.terminal? id :=
    terminal?_eq_of_undisputed same compiled otherCompiled undisputed
  refine ⟨other, otherCompiled, same, ?_, ?_, ?_⟩
  · rw [← same.size_eq]
    exact exists_back?_eq rfl compiled otherCompiled
  · intro id undisputed
    refine ⟨terminals id undisputed, ?_⟩
    intro path found
    exact owner?_of_undisputed compiled found undisputed
  · intro settled
    exact same.eq_of_terminal?_eq (numbering_of_compile compiled).fits fun id =>
      terminals id (settled id)

/-- An example: two usages at one node, and a third one at another. -/
def rivals : CompileUnit String String :=
  .alone
    { name := "set"
      aliases := []
      guard := none
      executor := none
      usages :=
        [⟨[.literal "mode"], some "first", none⟩, ⟨[.literal "mode"], some "second", none⟩,
          ⟨[.literal "time"], some "third", none⟩]
      subcommands := [] }

/-- The node of the rivals is disputed, and each rule gives it to another one of them; the third usage
keeps its node under both rules. -/
theorem rivals_precedences : ∃ trie other,
    (rivals.compile ⟨.lastWins, true⟩).result = .ok trie ∧
      (rivals.compile ⟨.keepFirst, true⟩).result = .ok other ∧
      Disputed (rivals.compile ⟨.lastWins, true⟩).log ⟨1, by decide⟩ ∧
      (trie.terminalAt? [.literal "mode"]).map (·.executor) = some (some "second") ∧
      (other.terminalAt? [.literal "mode"]).map (·.executor) = some (some "first") ∧
      ¬ Disputed (rivals.compile ⟨.lastWins, true⟩).log ⟨2, by decide⟩ ∧
      trie.terminal? ⟨2, by decide⟩ = other.terminal? ⟨2, by decide⟩ := by
  obtain ⟨trie, compiled⟩ := (exists_compile_eq_ok_iff ⟨.lastWins, true⟩ rivals).mpr
    ⟨by decide, by decide⟩
  obtain ⟨-, -, -, agree⟩ := rivals.precedences_agree true
  obtain ⟨other, otherCompiled, -, -, settled, -⟩ := agree trie compiled
  have fought : Disputed (rivals.compile ⟨.lastWins, true⟩).log ⟨1, by decide⟩ := by
    decide +kernel
  have calm : ¬ Disputed (rivals.compile ⟨.lastWins, true⟩).log ⟨2, by decide⟩ := by
    decide +kernel
  refine ⟨trie, other, compiled, otherCompiled, fought, ?_, ?_, calm, (settled _ calm).1⟩
  · rw [terminalAt?_eq compiled]
    decide
  · rw [terminalAt?_eq otherCompiled]
    decide

end CompileUnit

end Dispatch
