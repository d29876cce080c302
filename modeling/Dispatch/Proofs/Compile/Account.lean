import Dispatch.Proofs.Compile.Dispute
import Mathlib.Logic.Function.Basic

/-!
# What a log tells of a trie

A compilation reports every node that it appends, every terminal that comes to a node where one stands
already, and its end. Its log accounts for the trie that it ends with: the reports of appended nodes
rebuild the children of all nodes and name their arguments, the number of terminals in the last report
is that of the nodes that hold one, and the reports of second terminals are, one for one, the claims
that came too late. All this can be read off the messages and the fields of the events.

## Main definitions

* `Creation`, `creations` — what a log tells of appended nodes
* `reportsOf` — the events of a log with a given message
* `Creation.ToldBy`, `Progress.Reports`, `CompileUnit.Concludes` — the level, the message and the fields of
  an event, as they are shown
* `rebuilt` — the lists of children that these reports add up to
* `duplicates` — the reports of second terminals
* `Trie.terminalCount` — how many nodes hold a terminal
* `Offer.isClaim`, `lateClaims` — the offers of which a second terminal is reported
* `CompileUnit.Accounts` — a log accounts for a trie

## Main results

* `forall₂_toldBy_creations`, `reportsOf_duplicates` — the messages tell the events apart
* `Progress.Change.accounted` — one call keeps the log in accord with the trie
* `Progress.registerAll_duplicates` — which second terminals are reported
* `CompileUnit.log_accounts` — the log of a compilation accounts for its trie
-/

set_option autoImplicit false

namespace Dispatch

open Argument

variable {γ ε : Type}

/-! ### Reading a log -/

/-- What a log tells of an appended node. -/
structure Creation where
  parent : NodeId
  child : NodeId
  argument : Argument
deriving DecidableEq

/-- The node whose appending is reported. -/
def Event.creation? : Event → Option Creation
  | .createdNode parent child argument => some ⟨parent, child, argument⟩
  | _ => none

/-- Whether a second terminal at a node is reported. -/
def Event.isDuplicate : Event → Bool
  | .duplicateTerminal .. => true
  | _ => false

/-- Whether the event is about the way, not about the end: an appended node or a second terminal. -/
def Event.isUnderway (event : Event) : Bool := event.creation?.isSome || event.isDuplicate

/-- What a log tells of appended nodes, in order. -/
def creations (log : Array Event) : List Creation := log.toList.filterMap Event.creation?

/-- The reports of second terminals, in order. -/
def duplicates (log : Array Event) : List Event := log.toList.filter Event.isDuplicate

/-- The lists of children that arise if every child is appended to the list of its parent. -/
def rebuilt (creations : List Creation) : NodeId → List NodeId :=
  creations.foldl
    (fun lists made => Function.update lists made.parent (lists made.parent ++ [made.child]))
    fun _ => []

/-- How many nodes hold a terminal. -/
def Trie.terminalCount (trie : Trie γ ε) : Nat := trie.nodes.toList.countP (·.terminal.isSome)

/-- The events of a log with a given message, in order. -/
def reportsOf (message : String) (log : Array Event) : List Event :=
  log.toList.filter fun event => event.message = message

/-- An event tells of an appended node: it shows the numbers of parent and child, and the argument. -/
structure Creation.ToldBy (made : Creation) (event : Event) : Prop where
  level_eq : event.level = .trace
  message_eq : event.message = "Created node"
  fields_eq : event.fields =
    [("parent", .plain ("NodeId(" ++ toString made.parent.index ++ ")")),
      ("child", .plain ("NodeId(" ++ toString made.child.index ++ ")")),
      ("argument", .plain made.argument.display)]

/-- The message about a loaded file starts with a word of its own. -/
theorem Event.message_loaded_ne {message : String} (other : message.toList.head? ≠ some 'L')
    (commands : Nat) (path : String) : (Event.loaded commands path).message ≠ message := by
  rintro rfl
  exact other (by simp [Event.message])

theorem Event.isDuplicate_eq (event : Event) :
    event.isDuplicate = decide (event.message = "Duplicate terminal") := by
  cases event with
  | loaded commands path => exact (decide_eq_false (message_loaded_ne (by decide) commands path)).symm
  | _ => rfl

/-- The reports of second terminals are the events with this message. -/
theorem reportsOf_duplicates (log : Array Event) :
    reportsOf "Duplicate terminal" log = duplicates log :=
  List.filter_congr fun event _ => (event.isDuplicate_eq).symm

/-- An event either has the message of an appended node and tells of one, or has another message. -/
theorem Event.creation?_cases (event : Event) :
    (∃ made : Creation, event.creation? = some made ∧ made.ToldBy event) ∨
      event.creation? = none ∧ event.message ≠ "Created node" := by
  cases event with
  | createdNode parent child argument => exact .inl ⟨_, rfl, rfl, rfl, rfl⟩
  | loaded commands path => exact .inr ⟨rfl, message_loaded_ne (by decide) commands path⟩
  | _ => exact .inr ⟨rfl, by simp [message]⟩

/-- What a log tells of appended nodes is told by the events with this message. -/
theorem forall₂_toldBy_creations (log : Array Event) :
    List.Forall₂ Creation.ToldBy (creations log) (reportsOf "Created node" log) := by
  rw [creations, reportsOf]
  induction log.toList with
  | nil => exact .nil
  | cons event events ih =>
    rcases event.creation?_cases with ⟨made, told, tells⟩ | ⟨silent, other⟩
    · rw [List.filterMap_cons_some told, List.filter_cons_of_pos (by simpa using tells.message_eq)]
      exact .cons tells ih
    · rw [List.filterMap_cons_none silent, List.filter_cons_of_neg (by simpa using other)]
      exact ih

theorem Event.message_of_isUnderway {event : Event} (underway : event.isUnderway = true) :
    event.message = "Created node" ∨ event.message = "Duplicate terminal" := by
  rcases event.creation?_cases with ⟨made, -, tells⟩ | ⟨silent, -⟩
  · exact .inl tells.message_eq
  · rw [isUnderway, silent, Option.isSome_none, Bool.false_or, isDuplicate_eq] at underway
    exact .inr (of_decide_eq_true underway)

theorem creations_push {log : Array Event} {event : Event} :
    creations (log.push event) = creations log ++ event.creation?.toList := by
  rw [creations, creations, Array.toList_push, List.filterMap_append]
  cases told : event.creation? <;> simp [told]

theorem duplicates_push {log : Array Event} {event : Event} :
    duplicates (log.push event) =
      duplicates log ++ if event.isDuplicate then [event] else [] := by
  rw [duplicates, duplicates, Array.toList_push, List.filter_append]
  cases told : event.isDuplicate <;> simp [told]

theorem rebuilt_concat {made : List Creation} {last : Creation} (id : NodeId) :
    rebuilt (made ++ [last]) id =
      if id = last.parent then rebuilt made id ++ [last.child] else rebuilt made id := by
  rw [rebuilt, List.foldl_append, List.foldl_cons, List.foldl_nil, Function.update_apply]
  by_cases here : id = last.parent
  · rw [if_pos here, if_pos here, here]
    rfl
  · rw [if_neg here, if_neg here]
    rfl

/-! ### Counting terminals -/

namespace Trie

variable {trie : Trie γ ε} {parent id : NodeId} {argument : Argument} {terminal : Terminal γ ε}

private theorem countP_modify {α : Type} (p : α → Bool) (change : α → α) {items : List α} {slot : Nat}
    {item : α} (found : items[slot]? = some item) :
    (items.modify slot change).countP p + (p item).toNat =
      items.countP p + (p (change item)).toNat := by
  induction items generalizing slot with
  | nil => simp at found
  | cons first rest ih =>
    have counted (head : α) (tail : List α) :
        (head :: tail).countP p = tail.countP p + (p head).toNat := by
      rw [List.countP_cons]
      cases p head <;> rfl
    cases slot with
    | zero =>
      obtain rfl : first = item := by simpa using found
      rw [List.modify_zero_cons, counted, counted]
      omega
    | succ slot =>
      rw [List.modify_succ_cons, counted, counted]
      have := ih (by simpa using found)
      omega

theorem terminalCount_insertChild (valid : parent.index < trie.size)
    (fits : id.index = trie.size) :
    (trie.insertChild parent argument id fits).terminalCount = trie.terminalCount := by
  obtain ⟨node, found⟩ : ∃ node, trie.nodes.toList[parent.index]? = some node :=
    ⟨_, List.getElem?_eq_getElem (by simpa [size] using valid)⟩
  have modified := countP_modify (·.terminal.isSome) (Node.addChild id) found
  have same : (Node.addChild id node).terminal.isSome = node.terminal.isSome := rfl
  rw [same] at modified
  have appended : (trie.insertChild parent argument id fits).nodes.toList =
      trie.nodes.toList.modify parent.index (Node.addChild id) ++ [.fresh (some argument)] := by
    simp [insertChild]
  rw [terminalCount, appended, List.countP_append, terminalCount]
  have bare : [(Node.fresh (some argument) : Node γ ε)].countP (·.terminal.isSome) = 0 := rfl
  omega

theorem terminalCount_setTerminal (valid : id.index < trie.size) (terminal : Terminal γ ε) :
    (trie.setTerminal id terminal).terminalCount + (trie.terminal? id).isSome.toNat =
      trie.terminalCount + 1 := by
  obtain ⟨node, found⟩ : ∃ node, trie.nodes.toList[id.index]? = some node :=
    ⟨_, List.getElem?_eq_getElem (by simpa [size] using valid)⟩
  have put : (trie.setTerminal id terminal).nodes.toList =
      trie.nodes.toList.modify id.index fun node => { node with terminal := some terminal } := by
    simp [setTerminal]
  have standing : trie.terminal? id = node.terminal := by
    rw [terminal?, node?, ← Array.getElem?_toList, found]
    rfl
  rw [terminalCount, put, standing, terminalCount]
  exact countP_modify _ _ found

end Trie

/-! ### The log in the course of a compilation -/

namespace Progress

variable {settings : Settings} {progress after next : Progress γ ε} {parent id : NodeId}
  {argument : Argument} {path : List Argument} {paths : List (List Argument)} {offer : Offer γ ε}

/-- The log and the number of terminals are in accord with the trie. -/
structure Accounted (progress : Progress γ ε) : Prop where
  terminals_eq : progress.terminals = progress.trie.terminalCount
  length_eq : (creations progress.log).length + 1 = progress.trie.size
  creation : ∀ slot made, (creations progress.log)[slot]? = some made →
    made.child.index = slot + 1 ∧ made.parent.index < made.child.index ∧
      progress.trie.argument? made.child = some made.argument
  rebuilt_eq : ∀ id, rebuilt (creations progress.log) id = progress.trie.children id

theorem Accounted.start : (start : Progress γ ε).Accounted where
  terminals_eq := rfl
  length_eq := rfl
  creation := by
    intro slot made told
    exact absurd told (by simp [creations, Progress.start])
  rebuilt_eq id := (Trie.children_empty id).symm

theorem Accounted.insertChild (accounted : progress.Accounted)
    (valid : parent.index < progress.trie.size) (free : id.index = progress.trie.size) :
    Accounted
      { progress with
        trie := progress.trie.insertChild parent argument id free
        log := progress.log.push (.createdNode parent id argument) } := by
  have told : creations (progress.log.push (.createdNode parent id argument)) =
      creations progress.log ++ [⟨parent, id, argument⟩] := creations_push
  have length := accounted.length_eq
  refine ⟨?_, ?_, ?_, ?_⟩
  · rw [Trie.terminalCount_insertChild valid]
    exact accounted.terminals_eq
  · rw [told, List.length_append, List.length_singleton, Trie.size_insertChild, length]
  · intro slot made here
    rw [told] at here
    rw [Trie.argument?_insertChild]
    by_cases old : slot < (creations progress.log).length
    · -- The nodes that were there keep their slots and arguments.
      rw [List.getElem?_append_left old] at here
      obtain ⟨index, before, named⟩ := accounted.creation slot made here
      have differ : made.child ≠ id := by
        rintro rfl
        omega
      rw [if_neg differ]
      exact ⟨index, before, named⟩
    · -- The new node is told of last and stands in the last slot.
      have inside := (List.getElem?_eq_some_iff.mp here).1
      rw [List.length_append, List.length_singleton] at inside
      have last : slot = (creations progress.log).length := by omega
      rw [last, List.getElem?_concat_length] at here
      obtain rfl := Option.some_inj.mp here
      rw [if_pos rfl]
      refine ⟨?_, ?_, rfl⟩
      · rw [last]
        exact free.trans length.symm
      · exact free ▸ valid
  · intro other
    rw [told, rebuilt_concat, accounted.rebuilt_eq, Trie.children_insertChild free valid]

/-- A terminal that is put at a node is to be counted exactly if the node was empty. -/
theorem Accounted.setTerminal (accounted : progress.Accounted) (valid : id.index < progress.trie.size)
    (terminal : Terminal γ ε) :
    Accounted
      { progress with
        trie := progress.trie.setTerminal id terminal
        terminals := progress.terminals + (progress.trie.terminal? id).isNone.toNat } where
  terminals_eq := by
    have counted := Trie.terminalCount_setTerminal valid terminal
    have before := accounted.terminals_eq
    cases standing : progress.trie.terminal? id with
    | none =>
      rw [standing] at counted
      exact (congrArg (· + 1) before).trans counted.symm
    | some occupant =>
      rw [standing] at counted
      exact before.trans (Nat.succ_injective counted).symm
  length_eq := by
    rw [Trie.size_setTerminal]
    exact accounted.length_eq
  creation := by
    simp only [Trie.argument?_setTerminal]
    exact accounted.creation
  rebuilt_eq := by
    simp only [Trie.children_setTerminal]
    exact accounted.rebuilt_eq

/-- The report of a second terminal tells nothing of nodes. -/
theorem Accounted.push (accounted : progress.Accounted) {event : Event}
    (silent : event.creation? = none) :
    Accounted { progress with log := progress.log.push event } := by
  have told : creations (progress.log.push event) = creations progress.log := by
    rw [creations_push, silent, Option.toList_none, List.append_nil]
  refine ⟨accounted.terminals_eq, ?_, ?_, ?_⟩
  · rw [told]
    exact accounted.length_eq
  · rw [told]
    exact accounted.creation
  · rw [told]
    exact accounted.rebuilt_eq

theorem Accounted.place (accounted : progress.Accounted) (valid : id.index < progress.trie.size)
    (settings : Settings) (command : String) (entry : Option (Entry γ ε)) :
    (place settings command id entry progress).Accounted := by
  rcases place_records settings command id entry progress with
    same | ⟨terminal, empty, filled⟩ | ⟨trie, held, stays, reported⟩
  · rw [same]
    exact accounted
  · have put := accounted.setTerminal valid terminal
    rw [empty] at put
    rw [filled]
    exact put
  · rw [reported]
    rcases stays with rfl | ⟨terminal, rfl⟩
    · exact accounted.push rfl
    · -- The node was filled, so the replacement is not counted.
      have put := accounted.setTerminal valid terminal
      obtain ⟨occupant, stands⟩ := Option.isSome_iff_exists.mp held
      rw [stands] at put
      exact put.push rfl

/-- One call keeps the log in accord with the trie. -/
theorem Change.accounted (change : Change settings progress after)
    (accounted : progress.Accounted) : after.Accounted := by
  cases change with
  | child valid ensured =>
    rcases ensureChild_records ensured with ⟨-, rfl⟩ | ⟨-, free, rfl⟩
    · exact accounted
    · exact accounted.insertChild valid free
  | terminal command terminal valid =>
    exact accounted.place valid settings command (some (.terminal terminal))
  | placeholder terminal valid =>
    exact accounted.place valid settings "" (some (.placeholder terminal))

end Progress

/-! ### Claims that come too late -/

/-- The offer claims its node for itself: it has an executor, or it is the offer of a usage and has a
guard. -/
def Offer.isClaim (offer : Offer γ ε) : Bool :=
  offer.executor.isSome || !offer.isOwn && !offer.guards.isEmpty

/-- The claims, in order, on nodes for which something was offered before, given the offers that were
made already. -/
def lateClaimsAfter (earlier : List (Offer γ ε)) : List (Offer γ ε) → List (Offer γ ε)
  | [] => []
  | offer :: rest =>
    (if offer.isClaim ∧ offersTo offer.path earlier ≠ [] then [offer] else []) ++
      lateClaimsAfter (earlier ++ [offer]) rest

/-- The claims, in order, on nodes for which something was offered before. -/
def lateClaims (offers : List (Offer γ ε)) : List (Offer γ ε) := lateClaimsAfter [] offers

theorem Offer.isClaim_iff {offer : Offer γ ε} :
    offer.isClaim = true ↔ offer.isVoid = false ∧ offer.isPlaceholder = false := by
  unfold isClaim isVoid isPlaceholder
  cases offer.executor <;> cases offer.isOwn <;> simp

/-- A claim comes to a node as a terminal, and nothing else does. -/
theorem Offer.entry_of_isClaim {offer : Offer γ ε} (claims : offer.isClaim = true) :
    ∃ terminal, offer.registration.entry = some (.terminal terminal) := by
  obtain ⟨proper, held⟩ := isClaim_iff.mp claims
  obtain ⟨terminal, offered⟩ := Option.isSome_iff_exists.mp (isSome_terminal?_iff.mpr proper)
  rw [isPlaceholder_eq proper] at held
  exact ⟨terminal, by simp [registration, offered, held]⟩

theorem Offer.entry_of_not_isClaim {offer : Offer γ ε} (claims : offer.isClaim = false) :
    offer.registration.entry = none ∨
      ∃ terminal, offer.registration.entry = some (.placeholder terminal) := by
  cases void : offer.isVoid with
  | true =>
    have nothing := terminal?_eq_none_iff.mpr void
    exact Or.inl (by simp [registration, nothing])
  | false =>
    obtain ⟨terminal, offered⟩ := Option.isSome_iff_exists.mp (isSome_terminal?_iff.mpr void)
    have held : offer.isPlaceholder = true := by
      by_contra other
      rw [isClaim_iff.mpr ⟨void, Bool.eq_false_of_not_eq_true other⟩] at claims
      exact absurd claims (by simp)
    rw [isPlaceholder_eq void] at held
    exact Or.inr ⟨terminal, by simp [registration, offered, held]⟩

namespace Progress

variable {settings : Settings} {progress after next : Progress γ ε} {parent id : NodeId}
  {argument : Argument} {path : List Argument} {paths : List (List Argument)} {offer : Offer γ ε}
  {earlier offers : List (Offer γ ε)}

/-- Walking reports no second terminal. -/
theorem ensurePath_duplicates {start : NodeId}
    (walked : ensurePath start path progress = .ok id after) :
    duplicates after.log = duplicates progress.log := by
  induction path generalizing start progress with
  | nil =>
    injection walked with _ unchanged
    rw [unchanged]
  | cons argument path ih =>
    rw [ensurePath_cons] at walked
    split at walked
    · rename_i child between ensured
      rw [ih walked]
      rcases ensureChild_records ensured with ⟨-, rfl⟩ | ⟨-, free, rfl⟩
      · rfl
      · exact duplicates_push.trans (List.append_nil _)
    · simp at walked

/-- A report of a second terminal shows the command that made an offer, the number of the node to which the
offer came, and which of the two terminals stays; it is a warning if the settings say so. -/
def Reports (settings : Settings) (trie : Trie γ ε) (event : Event) (offer : Offer γ ε) : Prop :=
  ∃ id, trie.lookup? offer.path = some id ∧
    event.level = (if settings.warnOnDuplicate then .warn else .debug) ∧
    event.message = "Duplicate terminal" ∧
    event.fields =
      [("command", .quoted offer.command), ("node", .plain ("NodeId(" ++ toString id.index ++ ")")),
        ("action", .quoted (match settings.precedence with
          | .lastWins => "replaced"
          | .keepFirst => "kept first"))]

theorem reports_duplicateTerminal {trie : Trie γ ε} (found : trie.lookup? offer.path = some id) :
    Reports settings trie
      (.duplicateTerminal settings.warnOnDuplicate offer.command id settings.precedence) offer :=
  ⟨id, found, rfl, rfl, rfl⟩

/-- An offer is reported exactly if it is a claim on a node that holds a terminal. -/
theorem register_duplicates (numbered : progress.trie.Numbering paths)
    (processed : register settings offer.registration progress = .ok () next) :
    ∃ reports, duplicates next.log = duplicates progress.log ++ reports ∧
      List.Forall₂ (Reports settings next.trie) reports
        (if offer.isClaim ∧ (progress.trie.terminalAt? offer.path).isSome then [offer] else []) := by
  have walk := ensurePath_reaches numbered Trie.lookup?_nil offer.path
  have here : offer.registration.path = offer.path := rfl
  rw [register_eq, here] at processed
  split at processed
  · rename_i id between walked
    rw [walked] at walk
    obtain ⟨-, found, kept⟩ := walk
    rw [List.nil_append] at found
    injection processed with _ placed
    have standing : between.trie.terminal? id = progress.trie.terminalAt? offer.path := by
      rw [← kept, Trie.terminalAt?, found]
      rfl
    have found' : next.trie.lookup? offer.path = some id :=
      placed ▸ place_keeps settings _ id _ between found
    rw [← ensurePath_duplicates walked, ← standing]
    cases claims : offer.isClaim with
    | true =>
      obtain ⟨terminal, entry⟩ := Offer.entry_of_isClaim claims
      rw [entry, place, putTerminal] at placed
      cases stands : between.trie.terminal? id with
      | none =>
        rw [stands] at placed
        exact ⟨[], by rw [← placed, List.append_nil], by simp⟩
      | some occupant =>
        rw [stands] at placed
        refine ⟨_, by rw [← placed]; exact duplicates_push, ?_⟩
        exact .cons (reports_duplicateTerminal found') .nil
    | false =>
      -- Nothing else than a claim comes as a terminal, and only terminals are reported.
      refine ⟨[], ?_, by simp⟩
      rw [List.append_nil, ← placed]
      rcases Offer.entry_of_not_isClaim claims with entry | ⟨terminal, entry⟩
      · rw [entry]
        rfl
      · rw [entry, place, putPlaceholder]
        split
        · rfl
        · rfl
  · simp at processed

/-- A path is held by a terminal once something was offered there, and only then. -/
theorem isSome_terminalAt?_of_register (numbered : progress.trie.Numbering paths)
    (held : ∀ path, (progress.trie.terminalAt? path).isSome ↔ offersTo path earlier ≠ [])
    (processed : register settings offer.registration progress = .ok () next) :
    (∃ paths', next.trie.Numbering paths') ∧
      ∀ path, (next.trie.terminalAt? path).isSome ↔ offersTo path (earlier ++ [offer]) ≠ [] := by
  have step := register_reaches numbered settings offer.registration
  rw [processed] at step
  obtain ⟨numbered', settled⟩ := step
  refine ⟨⟨_, numbered'⟩, fun path => ?_⟩
  rw [settled, isSome_occupant_singleton, held, offersTo_concat]
  by_cases relevant : SamePath path offer.path ∧ offer.isVoid = false
  · simp [relevant]
  · simp [relevant]

/-- The second terminals that are reported are the claims that come too late, in their order. -/
theorem registerAll_duplicates (numbered : progress.trie.Numbering paths)
    (held : ∀ path, (progress.trie.terminalAt? path).isSome ↔ offersTo path earlier ≠ [])
    (ended : registerAll settings (offers.map Offer.registration) progress = .ok () after) :
    ∃ reports, duplicates after.log = duplicates progress.log ++ reports ∧
      List.Forall₂ (Reports settings after.trie) reports (lateClaimsAfter earlier offers) := by
  induction offers generalizing progress paths earlier with
  | nil =>
    injection ended with _ unchanged
    exact ⟨[], by rw [unchanged, List.append_nil], .nil⟩
  | cons offer offers ih =>
    rw [List.map_cons, registerAll_cons] at ended
    split at ended
    · rename_i next processed
      obtain ⟨first, told, about⟩ := register_duplicates numbered processed
      obtain ⟨⟨_, numbered'⟩, held'⟩ := isSome_terminalAt?_of_register numbered held processed
      obtain ⟨rest, told', about'⟩ := ih numbered' held' ended
      refine ⟨first ++ rest, by rw [told', told, List.append_assoc], ?_⟩
      -- The nodes of the first reports are found at the end as they were found before.
      have kept : List.Forall₂ (Reports settings after.trie) first
          (if offer.isClaim ∧ offersTo offer.path earlier ≠ [] then [offer] else []) := by
        simp only [← held]
        exact about.imp fun event offer ⟨id, found, shown⟩ => ⟨id, registerAll_keeps ended found, shown⟩
      exact List.rel_append kept about'
    · simp at ended

theorem isUnderway_push {log : Array Event} (underway : ∀ event ∈ log, event.isUnderway = true)
    {last : Event} (told : last.isUnderway = true) : ∀ event ∈ log.push last, event.isUnderway = true := by
  intro event mem
  rcases Array.mem_push.mp mem with old | rfl
  · exact underway event old
  · exact told

theorem isUnderway_place (underway : ∀ event ∈ progress.log, event.isUnderway = true)
    (settings : Settings) (command : String) (id : NodeId) (entry : Option (Entry γ ε)) :
    ∀ event ∈ (place settings command id entry progress).log, event.isUnderway = true := by
  rcases place_records settings command id entry progress with
    same | ⟨terminal, -, filled⟩ | ⟨trie, -, -, reported⟩
  · rw [same]
    exact underway
  · rw [filled]
    exact underway
  · rw [reported]
    exact isUnderway_push underway rfl

/-- Nothing but appended nodes and second terminals is reported on the way. -/
theorem Change.isUnderway (change : Change settings progress after)
    (underway : ∀ event ∈ progress.log, event.isUnderway = true) :
    ∀ event ∈ after.log, event.isUnderway = true := by
  cases change with
  | child valid ensured =>
    rcases ensureChild_records ensured with ⟨-, rfl⟩ | ⟨-, free, rfl⟩
    · exact underway
    · exact isUnderway_push underway rfl
  | terminal command terminal valid =>
    exact isUnderway_place underway settings command _ (some (.terminal terminal))
  | placeholder terminal valid =>
    exact isUnderway_place underway settings "" _ (some (.placeholder terminal))

end Progress

namespace CompileUnit

variable {settings : Settings} {unit : CompileUnit γ ε} {trie : Trie γ ε}

/-- An event reports the end of the compilation of a unit: it shows what was compiled, how many nodes that
took, and how many of them hold a terminal. -/
structure Concludes (unit : CompileUnit γ ε) (nodes terminals : Nat) (event : Event) : Prop where
  level_eq : event.level = .debug
  message_eq : event.message =
    match unit with
    | alone _ => "Built command graph"
    | together _ => "Merged command graph"
  fields_eq : event.fields =
    match unit with
    | alone command =>
      [("command", .plain command.name), ("nodes", .count nodes), ("terminals", .count terminals)]
    | together commands =>
      [("commands", .count commands.length), ("nodes", .count nodes), ("terminals", .count terminals)]

theorem concludes_summary (unit : CompileUnit γ ε) (nodes terminals : Nat) :
    unit.Concludes nodes terminals (unit.summary nodes terminals) := by
  cases unit with
  | alone command => exact ⟨rfl, rfl, rfl⟩
  | together commands => exact ⟨rfl, rfl, rfl⟩

/-- The log of the compilation of a unit accounts for a trie. -/
structure Accounts (settings : Settings) (unit : CompileUnit γ ε) (trie : Trie γ ε)
    (log : Array Event) : Prop where
  /-- the end is reported last, with the numbers of nodes and of terminals, and nothing but appended
  nodes and second terminals before -/
  ends : ∃ (events : Array Event) (last : Event), log = events.push last ∧
    unit.Concludes trie.size trie.terminalCount last ∧
    ∀ event ∈ events, event.message = "Created node" ∨ event.message = "Duplicate terminal"
  /-- every node but the root is reported, in the order of the slots, below an earlier node and with its
  argument; and these reports add up to the lists of children -/
  creations : ∃ made : List Creation,
    List.Forall₂ Creation.ToldBy made (reportsOf "Created node" log) ∧ made.length = trie.size - 1 ∧
    (∀ slot (inside : slot < made.length), made[slot].child.index = slot + 1 ∧
      made[slot].parent.index < slot + 1 ∧
      trie.argument? made[slot].child = some made[slot].argument) ∧
    ∀ id, rebuilt made id = trie.children id
  /-- second terminals are reported of the claims that came too late -/
  duplicates : List.Forall₂ (Progress.Reports settings trie) (reportsOf "Duplicate terminal" log)
    (lateClaims unit.offers)

/-- Behind a successful compilation stands a progress whose log is in accord with its trie. -/
theorem exists_accounted_of_compile (compiled : (unit.compile settings).result = .ok trie) :
    ∃ progress, Progress.registerAll settings unit.registrations .start = .ok () progress ∧
      progress.trie = trie ∧ progress.Accounted ∧ (∀ event ∈ progress.log, event.isUnderway = true) ∧
      (unit.compile settings).log = progress.log.push (unit.summary trie.size trie.terminalCount) := by
  obtain ⟨progress, ended, rfl, log⟩ := exists_log_of_compile compiled
  have reachable := (Progress.passes_of_registerAll ended).reachable
  have accounted : progress.Accounted :=
    Progress.kept_of_reachable (fun _ _ change => change.accounted) reachable .start
  have underway : ∀ event ∈ progress.log, event.isUnderway = true :=
    Progress.kept_of_reachable (fun _ _ change => change.isUnderway) reachable (by simp [Progress.start])
  rw [accounted.terminals_eq] at log
  exact ⟨progress, ended, rfl, accounted, underway, log⟩

/-- The log of a successful compilation accounts for the trie that was compiled. -/
theorem log_accounts (compiled : (unit.compile settings).result = .ok trie) :
    unit.Accounts settings trie (unit.compile settings).log := by
  obtain ⟨progress, ended, rfl, accounted, underway, log⟩ := exists_accounted_of_compile compiled
  -- The last report tells nothing of nodes and is about no second terminal.
  have quiet (nodes terminals : Nat) : (unit.summary nodes terminals).creation? = none ∧
      (unit.summary nodes terminals).isDuplicate = false := by
    cases unit with
    | alone command => exact ⟨rfl, rfl⟩
    | together commands => exact ⟨rfl, rfl⟩
  have made : creations (unit.compile settings).log = creations progress.log := by
    rw [log, creations_push, (quiet _ _).1, Option.toList_none, List.append_nil]
  have told : duplicates (unit.compile settings).log = duplicates progress.log := by
    rw [log, duplicates_push, (quiet _ _).2, if_neg Bool.false_ne_true, List.append_nil]
  -- At the start no path is held, and nothing was offered.
  have numbered : (Progress.start : Progress γ ε).trie.Numbering [[]] := Trie.Numbering.empty
  have bare (path : List Argument) : ((Progress.start : Progress γ ε).trie.terminalAt? path).isSome ↔
      offersTo path ([] : List (Offer γ ε)) ≠ [] := by
    simp [Progress.start, offersTo]
  rw [registrations_eq] at ended
  obtain ⟨reports, reported, about⟩ := Progress.registerAll_duplicates numbered bare ended
  have same : duplicates progress.log = reports := by
    simpa [duplicates, Progress.start] using reported
  refine ⟨?_, ?_, ?_⟩
  · exact ⟨progress.log, _, log, unit.concludes_summary _ _, fun event mem =>
      Event.message_of_isUnderway (underway event mem)⟩
  · refine ⟨creations progress.log, made ▸ forall₂_toldBy_creations _, ?_, ?_, ?_⟩
    · have := accounted.length_eq
      omega
    · intro slot inside
      obtain ⟨index, before, named⟩ := accounted.creation slot _ (List.getElem?_eq_getElem inside)
      exact ⟨index, index ▸ before, named⟩
    · exact accounted.rebuilt_eq
  · rw [reportsOf_duplicates, told, same]
    exact about

/-- The default executor of `stop` comes to the node of a usage, and this is the one second terminal that
is reported; the guard of `reload`, which comes to the node of another usage, is passed over. -/
theorem sample_accounts : ∃ trie, (sample.compile {}).result = .ok trie ∧
    sample.Accounts {} trie (sample.compile {}).log ∧
    (lateClaims sample.offers).map Offer.executor = [some "stop now"] ∧
    (reportsOf "Created node" (sample.compile {}).log).map Event.fields =
      [[("parent", .plain "NodeId(0)"), ("child", .plain "NodeId(1)"), ("argument", .plain "reload")],
        [("parent", .plain "NodeId(0)"), ("child", .plain "NodeId(2)"), ("argument", .plain "stop")],
        [("parent", .plain "NodeId(1)"), ("child", .plain "NodeId(3)"),
          ("argument", .plain "<what:word>")],
        [("parent", .plain "NodeId(0)"), ("child", .plain "NodeId(4)"), ("argument", .plain "r")],
        [("parent", .plain "NodeId(4)"), ("child", .plain "NodeId(5)"),
          ("argument", .plain "<what:word>")]] ∧
    (reportsOf "Duplicate terminal" (sample.compile {}).log).map Event.fields =
      [[("command", .quoted "stop"), ("node", .plain "NodeId(2)"), ("action", .quoted "replaced")]] ∧
    (reportsOf "Built command graph" (sample.compile {}).log).map Event.fields =
      [[("command", .plain "admin"), ("nodes", .count 6), ("terminals", .count 6)]] := by
  obtain ⟨trie, compiled⟩ := (exists_compile_eq_ok_iff {} sample).mpr ⟨by decide, by decide⟩
  refine ⟨trie, compiled, log_accounts compiled, by decide, ?_, ?_, ?_⟩
  · decide +kernel
  · decide +kernel
  · decide +kernel

end CompileUnit

end Dispatch
