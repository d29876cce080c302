import Dispatch.Proofs.Compile.Account
import Dispatch.Proofs.Compile.Coupling

/-!
# Registering the same again

If what is registered at each path was just registered there, then registering it again appends no node and
fills none. It may replace terminals on the way, but in the end the same terminal stands at every node, as
what settles a node settles it in the same way twice. So the only traces of the second time are reports of
second terminals.

## Main definitions

* `otherReports` — what a log tells of anything but second terminals
* `Progress.EqButDuplicates` — two states differ at most in reports of second terminals
* `Progress.Holds` — the path of a registration leads to a node, which is filled if it is to be filled
* `Progress.Echoes` — some registrations repeat what was registered last at their paths

## Main results

* `Progress.occupant_idem` — registrations settle a node in the same way twice
* `Progress.registerAll_retraced` — what is registered at nodes that are there and filled
* `Progress.registerAll_echo` — registrations that repeat the last ones change nothing
* `Progress.foldAt_again` — compiling a command at a node twice in a row
-/

set_option autoImplicit false

namespace Dispatch

open Argument

variable {γ ε : Type}

/-- What a log tells of anything but second terminals, in order. -/
def otherReports (log : Array Event) : List Event := log.toList.filter fun event => !event.isDuplicate

theorem otherReports_push {log : Array Event} {event : Event} :
    otherReports (log.push event) =
      otherReports log ++ if event.isDuplicate then [] else [event] := by
  rw [otherReports, otherReports, Array.toList_push, List.filter_append]
  cases told : event.isDuplicate <;> simp [told]

namespace Progress

variable {settings : Settings} {precedence : Precedence} {progress other third after : Progress γ ε}
  {id node : NodeId} {path : List Argument} {paths : List (List Argument)}
  {registration : Registration γ ε} {registrations others front block back : List (Registration γ ε)}
  {standing : Option (Terminal γ ε)}

/-! ### States that differ in reports of second terminals -/

/-- Two states differ at most in the reports of second terminals. -/
structure EqButDuplicates (progress other : Progress γ ε) : Prop where
  trie_eq : progress.trie = other.trie
  terminals_eq : progress.terminals = other.terminals
  reports_eq : otherReports progress.log = otherReports other.log

theorem EqButDuplicates.refl (progress : Progress γ ε) : progress.EqButDuplicates progress :=
  ⟨rfl, rfl, rfl⟩

theorem EqButDuplicates.trans (same : progress.EqButDuplicates other)
    (same' : other.EqButDuplicates third) : progress.EqButDuplicates third :=
  ⟨same.trie_eq.trans same'.trie_eq, same.terminals_eq.trans same'.terminals_eq,
    same.reports_eq.trans same'.reports_eq⟩

/-- No step looks at what was reported. -/
theorem coupling_eqButDuplicates (settings : Settings) :
    Coupling settings settings Eq (EqButDuplicates : Progress γ ε → Progress γ ε → Prop) where
  ensureChild := by
    rintro ⟨trie, terminals, log⟩ ⟨trie', terminals', log'⟩ parent argument _ ⟨rfl, rfl, reports⟩ rfl
    rw [Progress.ensureChild_eq, Progress.ensureChild_eq]
    cases trie.findChild? parent argument with
    | some id => exact .ok rfl ⟨rfl, rfl, reports⟩
    | none =>
      by_cases fits : trie.size < NodeId.capacity
      · simp only [dif_pos fits]
        refine .ok rfl ⟨rfl, rfl, ?_⟩
        rw [otherReports_push, otherReports_push, reports]
      · simp only [dif_neg fits]
        exact .error rfl ⟨rfl, rfl, reports⟩
  place := by
    rintro ⟨trie, terminals, log⟩ ⟨trie', terminals', log'⟩ command id entry ⟨rfl, rfl, reports⟩
    rcases entry with _ | terminal | terminal
    · exact ⟨rfl, rfl, reports⟩
    · simp only [Progress.place, putTerminal]
      cases trie.terminal? id with
      | none => exact ⟨rfl, rfl, reports⟩
      | some occupant =>
        refine ⟨rfl, rfl, ?_⟩
        rw [otherReports_push, otherReports_push, reports]
    · simp only [Progress.place, putPlaceholder]
      cases trie.terminal? id with
      | none => exact ⟨rfl, rfl, reports⟩
      | some occupant => exact ⟨rfl, rfl, reports⟩

/-! ### Settling a node twice -/

/-- What comes to a node takes it, whatever stood there, or it fills it if it is empty. -/
theorem settle_const_or (precedence : Precedence) (entry : Option (Entry γ ε)) :
    (∃ terminal, ∀ standing, settle precedence standing entry = some terminal) ∨
      ∃ filler, ∀ standing, settle precedence standing entry = standing.or filler := by
  rcases entry with _ | newcomer | newcomer
  · exact Or.inr ⟨none, fun standing => by cases standing <;> rfl⟩
  · cases precedence with
    | lastWins => exact Or.inl ⟨newcomer, fun standing => by cases standing <;> rfl⟩
    | keepFirst => exact Or.inr ⟨some newcomer, fun standing => by cases standing <;> rfl⟩
  · exact Or.inr ⟨some newcomer, fun standing => by cases standing <;> rfl⟩

/-- The same holds of any number of registrations. -/
theorem occupant_const_or (precedence : Precedence) (path : List Argument)
    (registrations : List (Registration γ ε)) :
    (∃ terminal, ∀ standing, occupant precedence path registrations standing = some terminal) ∨
      ∃ filler, ∀ standing, occupant precedence path registrations standing = standing.or filler := by
  induction registrations using List.reverseRecOn with
  | nil => exact Or.inr ⟨none, fun standing => (Option.or_none).symm⟩
  | append_singleton registrations registration ih =>
    by_cases here : SamePath path registration.path
    · simp only [occupant_concat, if_pos here]
      -- The last one decides if it takes the node; otherwise it fills what the others left empty.
      rcases settle_const_or precedence registration.entry with ⟨terminal, takes⟩ | ⟨filler, fills⟩
      · exact Or.inl ⟨terminal, fun standing => takes _⟩
      · refine ih.imp ?_ ?_
        · rintro ⟨terminal, always⟩
          exact ⟨terminal, fun standing => by rw [fills, always, Option.some_or]⟩
        · rintro ⟨earlier, filled⟩
          exact ⟨earlier.or filler, fun standing => by rw [fills, filled, Option.or_assoc]⟩
    · simpa only [occupant_concat, if_neg here] using ih

/-- Registrations settle a node in the same way twice. -/
theorem occupant_idem :
    occupant precedence path registrations (occupant precedence path registrations standing) =
      occupant precedence path registrations standing := by
  rcases occupant_const_or precedence path registrations with ⟨terminal, always⟩ | ⟨filler, fills⟩
  · rw [always, always]
  · rw [fills, fills, Option.or_assoc, Option.or_self]

/-- A node is filled once something comes to it, and it is not emptied. -/
theorem isSome_occupant :
    (occupant precedence path registrations standing).isSome ↔ standing.isSome ∨
      ∃ registration ∈ registrations, SamePath path registration.path ∧ registration.entry.isSome := by
  induction registrations using List.reverseRecOn with
  | nil => simp [occupant]
  | append_singleton registrations registration ih =>
    rw [occupant_concat]
    by_cases here : SamePath path registration.path
    · rw [if_pos here, isSome_settle, Bool.or_eq_true, ih]
      simp [here, or_and_right, exists_or, or_assoc]
    · rw [if_neg here, ih]
      simp [here, or_and_right, exists_or]

/-! ### Registering where everything is there -/

/-- The path of a registration leads to a node, and the node is filled if the registration has something to
put there. -/
def Holds (progress : Progress γ ε) (registration : Registration γ ε) : Prop :=
  ∃ id, progress.trie.lookup? registration.path = some id ∧
    (registration.entry.isSome → (progress.trie.terminal? id).isSome)

/-- A state differs from an earlier one at most in what terminals are and in reports of second terminals. -/
structure Retraced (progress after : Progress γ ε) : Prop where
  frame : after.trie.SameFrame progress.trie
  terminals_eq : after.terminals = progress.terminals
  reports_eq : otherReports after.log = otherReports progress.log

theorem Retraced.holds (retraced : progress.Retraced after) (holds : progress.Holds registration) :
    after.Holds registration := by
  obtain ⟨id, found, filled⟩ := holds
  refine ⟨id, ?_, ?_⟩
  · rw [retraced.frame.lookup?_eq, found]
  · rw [retraced.frame.isSome_terminal?_eq]
    exact filled

/-- What comes to a filled node fills no further one. -/
theorem retraced_place (settings : Settings) (command : String) {entry : Option (Entry γ ε)}
    (filled : entry.isSome → (progress.trie.terminal? id).isSome) :
    progress.Retraced (place settings command id entry progress) := by
  rcases entry with _ | terminal | terminal
  · exact ⟨Trie.SameFrame.refl _, rfl, rfl⟩
  · obtain ⟨occupant, stands⟩ := Option.isSome_iff_exists.mp (filled rfl)
    simp only [place, putTerminal, stands]
    refine ⟨?_, rfl, ?_⟩
    · cases settings.precedence with
      | lastWins => exact Trie.SameFrame.setTerminal_self (filled rfl) terminal
      | keepFirst => exact Trie.SameFrame.refl _
    · exact otherReports_push.trans (List.append_nil _)
  · obtain ⟨occupant, stands⟩ := Option.isSome_iff_exists.mp (filled rfl)
    simp only [place, putPlaceholder, stands]
    exact ⟨Trie.SameFrame.refl _, rfl, rfl⟩

theorem register_retraced (settings : Settings) (holds : progress.Holds registration) :
    ∃ after, register settings registration progress = .ok () after ∧ progress.Retraced after := by
  obtain ⟨id, found, filled⟩ := holds
  refine ⟨_, ?_, retraced_place settings registration.command filled⟩
  rw [register_eq, ensurePath_of_lookup?_self found]

/-- Registrations whose nodes are there and filled append none and fill none. -/
theorem registerAll_retraced (settings : Settings)
    (holds : ∀ registration ∈ registrations, progress.Holds registration) :
    ∃ after, registerAll settings registrations progress = .ok () after ∧ progress.Retraced after := by
  induction registrations generalizing progress with
  | nil => exact ⟨progress, rfl, Trie.SameFrame.refl _, rfl, rfl⟩
  | cons registration registrations ih =>
    obtain ⟨next, processed, first⟩ := register_retraced settings
      (holds registration List.mem_cons_self)
    obtain ⟨after, ended, others⟩ := ih fun other mem =>
      first.holds (holds other (List.mem_cons_of_mem _ mem))
    refine ⟨after, ?_, others.frame.trans first.frame, others.terminals_eq.trans first.terminals_eq,
      others.reports_eq.trans first.reports_eq⟩
    rw [registerAll_cons, processed]
    exact ended

/-- Whatever was registered has a node from then on, which is filled if it was to be filled. -/
theorem holds_of_registerAll (numbered : progress.trie.Numbering paths)
    (ended : registerAll settings registrations progress = .ok () after)
    (mem : registration ∈ registrations) : after.Holds registration := by
  have reached := registerAll_reaches numbered settings registrations
  rw [ended] at reached
  obtain ⟨numbered', settled⟩ := reached
  have known : (after.trie.lookup? registration.path).isSome := by
    by_cases atRoot : registration.path = []
    · rw [atRoot]
      rfl
    · have entered : registration.path ∈ registrations.flatMap fun r => beginnings r.path :=
        List.mem_flatMap.mpr ⟨registration, mem, mem_beginnings.mpr ⟨atRoot, List.prefix_rfl⟩⟩
      exact numbered'.isSome_lookup?_iff.mpr
        (known_enterAll.mpr (Or.inr ⟨_, entered, SamePath.refl _⟩))
  obtain ⟨id, found⟩ := Option.isSome_iff_exists.mp known
  refine ⟨id, found, fun entered => ?_⟩
  have standing := settled registration.path
  rw [Trie.terminalAt?, found, Option.bind_some] at standing
  rw [standing, isSome_occupant]
  exact Or.inr ⟨registration, mem, SamePath.refl _, entered⟩

/-! ### Echoes -/

/-- The registrations at the end of a path. -/
def registrationsTo (path : List Argument) (registrations : List (Registration γ ε)) :
    List (Registration γ ε) :=
  registrations.filter fun registration => decide (SamePath path registration.path)

theorem registrationsTo_append :
    registrationsTo path (registrations ++ others) =
      registrationsTo path registrations ++ registrationsTo path others := List.filter_append _ _

/-- At each path, the block repeats what was registered last. -/
def Echoes (front block : List (Registration γ ε)) : Prop :=
  ∀ path, registrationsTo path block <:+ registrationsTo path front

theorem Echoes.refl (block : List (Registration γ ε)) : Echoes block block :=
  fun _ => List.suffix_rfl

/-- What was registered before does not matter. -/
theorem Echoes.append_left (echoes : Echoes front block) (earlier : List (Registration γ ε)) :
    Echoes (earlier ++ front) block := by
  intro path
  rw [registrationsTo_append]
  exact (echoes path).trans (List.suffix_append _ _)

theorem Echoes.subset (echoes : Echoes front block) : block ⊆ front := by
  intro registration mem
  have here : registration ∈ registrationsTo registration.path block :=
    List.mem_filter.mpr ⟨mem, decide_eq_true (SamePath.refl _)⟩
  exact List.mem_of_mem_filter ((echoes registration.path).subset here)

/-- Only the registrations at a path matter for its terminal. -/
theorem occupant_registrationsTo (registrations : List (Registration γ ε)) :
    occupant precedence path (registrationsTo path registrations) standing =
      occupant precedence path registrations standing := by
  rw [occupant, occupant, registrationsTo, List.foldl_filter]
  congr 1
  funext standing registration
  by_cases here : SamePath path registration.path <;> simp [here]

theorem occupant_append :
    occupant precedence path (registrations ++ others) standing =
      occupant precedence path others (occupant precedence path registrations standing) :=
  List.foldl_append

/-- An echo settles every node as it is settled already. -/
theorem Echoes.occupant_eq (echoes : Echoes front block) :
    occupant precedence path block (occupant precedence path front standing) =
      occupant precedence path front standing := by
  obtain ⟨earlier, split⟩ := echoes path
  rw [← occupant_registrationsTo front, ← split, occupant_append, occupant_registrationsTo, occupant_idem]

/-- Registrations that repeat the last ones at their paths leave nothing but reports of second terminals. -/
theorem registerAll_echo (numbered : progress.trie.Numbering paths) (settings : Settings)
    (echoes : Echoes front block) :
    EndAlike EqButDuplicates (registerAll settings (front ++ block) progress)
      (registerAll settings front progress) := by
  rw [registerAll_append]
  cases ended : registerAll settings front progress with
  | error error next => exact .error rfl (.refl next)
  | ok done next =>
    have reached := registerAll_reaches numbered settings front
    rw [ended] at reached
    obtain ⟨numbered', settled⟩ := reached
    obtain ⟨after, again, retraced⟩ := registerAll_retraced settings
      fun registration mem => holds_of_registerAll numbered ended (echoes.subset mem)
    -- The frame is the same anyway, and the same terminals stand at the ends of all paths.
    have settledAgain := registerAll_reaches numbered' settings block
    rw [again] at settledAgain
    have same : next.trie = after.trie := by
      refine retraced.frame.symm.eq_of_terminalAt?_eq numbered' fun path => ?_
      rw [settledAgain.2, settled, echoes.occupant_eq]
    simp only [again]
    exact .ok rfl ⟨same.symm, retraced.terminals_eq, retraced.reports_eq⟩

/-- What comes later is processed alike after steps that end alike. -/
theorem EndAlike.registerAll_append
    (ends : EndAlike EqButDuplicates (registerAll settings registrations progress)
      (registerAll settings others other)) (back : List (Registration γ ε)) :
    EndAlike EqButDuplicates (registerAll settings (registrations ++ back) progress)
      (registerAll settings (others ++ back) other) := by
  rw [Progress.registerAll_append, Progress.registerAll_append]
  generalize registerAll settings registrations progress = result at ends
  generalize registerAll settings others other = otherResult at ends
  cases ends with
  | ok same related =>
    exact (coupling_eqButDuplicates settings).registerAll related
      (List.forall₂_same.mpr fun registration _ => .refl registration)
  | error same related => exact .error same related

/-! ### Any state that calls can reach -/

/-- Calls keep the nodes numbered by paths. -/
theorem Change.exists_numbering (change : Change settings progress after)
    (numbered : ∃ paths, progress.trie.Numbering paths) : ∃ paths, after.trie.Numbering paths := by
  obtain ⟨paths, numbered⟩ := numbered
  cases change with
  | child valid ensured =>
    rcases ensureChild_cases ensured with ⟨-, rfl⟩ | ⟨absent, free, appended⟩
    · exact ⟨paths, numbered⟩
    · obtain ⟨base, found⟩ := numbered.exists_lookup? valid
      exact ⟨_, appended ▸ numbered.insertChild found absent free⟩
  | terminal command terminal valid =>
    exact ⟨paths, numbering_place numbered (some (.terminal terminal)) command⟩
  | placeholder terminal valid =>
    rename_i id
    have kept : (place settings "" id (some (.placeholder terminal)) progress).trie.Numbering paths :=
      numbering_place numbered _ ""
    exact ⟨paths, kept⟩

theorem exists_numbering_of_reachable
    (reachable : Relation.ReflTransGen (Change settings) .start progress) :
    ∃ paths, progress.trie.Numbering paths :=
  kept_of_reachable (fun _ _ change => change.exists_numbering) reachable ⟨[[]], Trie.Numbering.empty⟩

/-- In any state that calls can reach, compiling a command at a node once more, with the same enclosing
guard, succeeds and leaves nothing but reports of second terminals. -/
theorem foldAt_again (reachable : Relation.ReflTransGen (Change settings) .start progress)
    (valid : node.index < progress.trie.size) {inherited : Option (Guard γ)} {command : Command γ ε}
    (once : foldAt settings inherited node command progress = .ok () after) :
    ∃ twice, foldAt settings inherited node command after = .ok () twice ∧
      twice.EqButDuplicates after := by
  obtain ⟨paths, numbered⟩ := exists_numbering_of_reachable reachable
  obtain ⟨base, found⟩ := numbered.exists_lookup? valid
  rw [foldAt_eq settings inherited command found] at once
  rw [foldAt_eq settings inherited command (registerAll_keeps once found)]
  have ends := registerAll_echo numbered settings (Echoes.refl (command.registrationsAt inherited base))
  rw [registerAll_append, once] at ends
  simp only at ends
  generalize registerAll settings (command.registrationsAt inherited base) after = result at ends
  cases ends with
  | @ok _ _ twice _ _ same => exact ⟨twice, rfl, same⟩

end Progress

end Dispatch
