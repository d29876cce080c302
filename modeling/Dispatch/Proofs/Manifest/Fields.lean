import Dispatch.Proofs.Manifest.Schema
import Dispatch.Proofs.Sequence

/-!
# Decoding by fields

The decoders of the four kinds of record differ in what they read and in where they put it. This file
makes one decoder out of them that is given what is declared, and shows that a record is decoded key by
key: each key of a table sets the field that it names and no other one, and a field without a key has
what is assumed for it. So a table with distinct keys is decoded exactly if each field has got what the
table says about it.

## Main definitions

* `Schema.Form.Data`, `Schema.Form.decode`, `Schema.Form.toValue` — data, decoding and writing out, by
  what is declared
* `Schema.View` — a field as a part of a record of which some fields are known
* `Schema.Record.Holds` — what is known of a record is what a table says

## Main results

* `Schema.Record.step_eq_ok_iff` — what one key does
* `Schema.Record.exists_decode_table_iff` — which tables can be decoded
* `Schema.Record.decode_table_eq_ok_iff` — what a table is decoded to
-/

set_option autoImplicit false

namespace Dispatch

open Toml Decode

variable {σ : Type}

/-! ### Finished drafts -/

namespace DeclaredUsage

/-- A usage as a draft in which everything is known. -/
def draft (usage : DeclaredUsage) : Draft := ⟨some usage.pattern, usage.permission, usage.executes⟩

theorem Draft.finish_eq_ok_iff {draft : Draft} {usage : DeclaredUsage} :
    draft.finish = .ok usage ↔ draft = usage.draft := by
  obtain ⟨pattern, permission, executes⟩ := draft
  obtain ⟨pattern', permission', executes'⟩ := usage
  cases pattern <;> simp [finish, required, DeclaredUsage.draft, bind, Except.bind, pure, Except.pure]

theorem decode_table_eq_ok_iff {entries : List (String × Value)} {usage : DeclaredUsage} :
    decode (.table entries) = .ok usage ↔ entries.foldlM decodeField {} = .ok usage.draft := by
  simp only [decode, bind_eq_ok_iff, Draft.finish_eq_ok_iff, exists_eq_right]

theorem exists_draft_iff {draft : Draft} :
    (∃ usage : DeclaredUsage, usage.draft = draft) ↔ draft.pattern ≠ none := by
  obtain ⟨pattern, permission, executes⟩ := draft
  constructor
  · rintro ⟨usage, ⟨⟩⟩
    exact Option.some_ne_none _
  · intro given
    obtain ⟨pattern, rfl⟩ := Option.ne_none_iff_exists'.mp given
    exact ⟨⟨pattern, permission, executes⟩, rfl⟩

end DeclaredUsage

namespace DeclaredCommand

/-- A command as a draft in which everything is known. -/
def draft (command : DeclaredCommand) : Draft :=
  ⟨some command.name, command.aliases, command.permission, command.runs, command.usages,
    command.subcommands⟩

theorem Draft.finish_eq_ok_iff {draft : Draft} {command : DeclaredCommand} :
    draft.finish = .ok command ↔ draft = command.draft := by
  obtain ⟨name, aliases, permission, runs, usages, subcommands⟩ := draft
  obtain ⟨name', aliases', permission', runs', usages', subcommands'⟩ := command
  cases name <;> simp [finish, required, DeclaredCommand.draft, bind, Except.bind, pure, Except.pure]

theorem exists_draft_iff {draft : Draft} :
    (∃ command : DeclaredCommand, command.draft = draft) ↔ draft.name ≠ none := by
  obtain ⟨name, aliases, permission, runs, usages, subcommands⟩ := draft
  constructor
  · rintro ⟨command, ⟨⟩⟩
    exact Option.some_ne_none _
  · intro given
    obtain ⟨name, rfl⟩ := Option.ne_none_iff_exists'.mp given
    exact ⟨⟨name, aliases, permission, runs, usages, subcommands⟩, rfl⟩

theorem decodeEach_eq_mapM (elements : List Value) : decodeEach elements = elements.mapM decode := by
  induction elements with
  | nil => rfl
  | cons first rest ih => rw [decodeEach, List.mapM_cons, ih]

theorem decodeAll_eq (value : Value) :
    decodeAll value = (do (← elements value).mapM DeclaredCommand.decode) := by
  cases value
  case array elements => exact decodeEach_eq_mapM elements
  all_goals rfl

/-- Sets the field of a command that an entry of a table gives. -/
def decodeEntry (draft : Draft) : String × Value → Decode Draft
  | (field, value) =>
    if field = "subcommands" then do
      let subcommands ← decodeAll value
      pure { draft with subcommands }
    else decodeField draft field value

theorem decodeEntries_eq_foldlM (entries : List (String × Value)) (draft : Draft) :
    decodeEntries draft entries = entries.foldlM decodeEntry draft := by
  induction entries generalizing draft with
  | nil => rfl
  | cons entry rest ih =>
    rw [decodeEntries, List.foldlM_cons, decodeEntry]
    simp only [ih]
    split <;> simp

theorem decode_table_eq_ok_iff {entries : List (String × Value)} {command : DeclaredCommand} :
    decode (.table entries) = .ok command ↔ entries.foldlM decodeEntry {} = .ok command.draft := by
  simp only [decode, decodeEntries_eq_foldlM, bind_eq_ok_iff, Draft.finish_eq_ok_iff, exists_eq_right]

end DeclaredCommand

namespace Schema

/-- Entries that are made under distinct keys have distinct keys. -/
theorem nodup_keys_filterMap {α : Type} {key : α → String} {written? : α → Option (String × Value)}
    {items : List α} (distinct : (items.map key).Nodup)
    (named : ∀ item entry, written? item = some entry → entry.1 = key item) :
    ((items.filterMap written?).map Prod.fst).Nodup := by
  rw [List.Nodup, List.pairwise_map] at distinct
  rw [List.Nodup, List.pairwise_map, List.pairwise_filterMap]
  refine distinct.imp ?_
  intro item other apart entry made entry' made'
  rw [named item entry made, named other entry' made']
  exact apart

/-! ### One decoder for all forms -/

/-- The data of a record. -/
def Record.Data : Record → Type
  | .settings => Settings
  | .usage => DeclaredUsage
  | .command => DeclaredCommand
  | .manifest => Declared

/-- The data that stand for a value. -/
def Form.Data : Form → Type
  | .text => String
  | .flag => Bool
  | .precedence => Precedence
  | .list element => List element.Data
  | .record kind => kind.Data

/-- Decodes a record. -/
def Record.decode : (record : Record) → Value → Decode record.Data
  | .settings, value => Settings.decode value
  | .usage, value => DeclaredUsage.decode value
  | .command, value => DeclaredCommand.decode value
  | .manifest, .table entries => Declared.decode entries
  | .manifest, value => refuse "a table" value

/-- Decodes what is declared. -/
def Form.decode : (form : Form) → Value → Decode form.Data
  | .text, value => Decode.text value
  | .flag, value => boolean value
  | .precedence, value => Precedence.decode value
  | .list element, value => do (← elements value).mapM element.decode
  | .record kind, value => kind.decode value

/-- A value can be decoded to what is declared. -/
def Form.Accepts (form : Form) (value : Value) : Prop := ∃ data, form.decode value = .ok data

/-- Writes out the data of a record. -/
def Record.toValue : (record : Record) → record.Data → Value
  | .settings, data => Settings.toValue data
  | .usage, data => DeclaredUsage.toValue data
  | .command, data => DeclaredCommand.toValue data
  | .manifest, data => Declared.toValue data

/-- Writes out what is declared. -/
def Form.toValue : (form : Form) → form.Data → Value
  | .text, data => .string data
  | .flag, data => .boolean data
  | .precedence, data => .string (Precedence.name data)
  | .list element, data => .array (List.map element.toValue data)
  | .record kind, data => kind.toValue data

/-! ### Fields as parts of a draft -/

/-- A record of which some fields are known. -/
def Record.Draft : Record → Type
  | .settings => Settings
  | .usage => DeclaredUsage.Draft
  | .command => DeclaredCommand.Draft
  | .manifest => Declared

/-- What is known before any key has been seen. -/
def Record.start : (record : Record) → record.Draft
  | .settings => ({} : Settings)
  | .usage => ({} : DeclaredUsage.Draft)
  | .command => ({} : DeclaredCommand.Draft)
  | .manifest => (⟨{}, []⟩ : Declared)

/-- Sets the field that an entry of a table gives. -/
def Record.step : (record : Record) → record.Draft → String × Value → Decode record.Draft
  | .settings => Settings.decodeField
  | .usage => DeclaredUsage.decodeField
  | .command => DeclaredCommand.decodeEntry
  | .manifest => Declared.decodeField

/-- A record as a draft in which everything is known. -/
def Record.draft : (record : Record) → record.Data → record.Draft
  | .settings, data => data
  | .usage, data => DeclaredUsage.draft data
  | .command, data => DeclaredCommand.draft data
  | .manifest, data => data

/-- A field as a part of something. -/
structure View (σ : Type) where
  field : Field
  /-- the data of the field, if they are known -/
  get : σ → Option field.form.Data
  set : σ → field.form.Data → σ
  /-- setting the field makes it known -/
  get_set : ∀ whole data, get (set whole data) = some data := by intros; rfl

/-- The fields of a record as parts of a draft. -/
def Record.views : (record : Record) → List (View record.Draft)
  | .settings =>
    [{ field := .precedence
       get := fun settings : Settings => some settings.precedence
       set := fun settings precedence => { settings with precedence } },
      { field := .warnOnDuplicate
        get := fun settings : Settings => some settings.warnOnDuplicate
        set := fun settings warnOnDuplicate => { settings with warnOnDuplicate } }]
  | .usage =>
    [{ field := .pattern
       get := DeclaredUsage.Draft.pattern
       set := fun draft pattern => { draft with pattern := some pattern } },
      { field := .permission
        get := DeclaredUsage.Draft.permission
        set := fun draft permission => { draft with permission := some permission } },
      { field := .executes
        get := fun draft => some draft.executes
        set := fun draft executes => { draft with executes } }]
  | .command =>
    [{ field := .name
       get := DeclaredCommand.Draft.name
       set := fun draft name => { draft with name := some name } },
      { field := .aliases
        get := fun draft => some draft.aliases
        set := fun draft aliases => { draft with aliases } },
      { field := .permission
        get := DeclaredCommand.Draft.permission
        set := fun draft permission => { draft with permission := some permission } },
      { field := .runs
        get := fun draft => some draft.runs
        set := fun draft runs => { draft with runs } },
      { field := .usages
        get := fun draft => some draft.usages
        set := fun draft usages => { draft with usages } },
      { field := .subcommands
        get := fun draft => some draft.subcommands
        set := fun draft subcommands => { draft with subcommands } }]
  | .manifest =>
    [{ field := .settings
       get := fun declared : Declared => some declared.settings
       set := fun declared settings => { declared with settings } },
      { field := .commands
        get := fun declared : Declared => some declared.commands
        set := fun declared commands => { declared with commands } }]

/-- A field has got the data that a value stands for. -/
def View.Reads (view : View σ) (value : Value) (state : σ) : Prop :=
  ∃ data, view.field.form.decode value = .ok data ∧ view.get state = some data

/-- A field has what is assumed for it, or nothing if nothing is assumed. -/
def View.Lacks (view : View σ) (state : σ) : Prop :=
  match view.field.presence with
  | .assumed value => view.Reads value state
  | .required => view.get state = none
  | .optional => view.get state = none

/-- The entry that writes out a field, if it is known. -/
def View.written? (state : σ) (view : View σ) : Option (String × Value) :=
  (view.get state).map fun data => (view.field.key, view.field.form.toValue data)

theorem Record.map_field_views (record : Record) : record.views.map View.field = record.fields := by
  cases record <;> rfl

namespace Record

variable {record : Record} {view other : View record.Draft} {field : Field}
  {state state' : record.Draft}

theorem field_mem (mem : view ∈ record.views) : view.field ∈ record.fields := by
  rw [← record.map_field_views]
  exact List.mem_map_of_mem mem

theorem exists_view (mem : field ∈ record.fields) : ∃ view ∈ record.views, view.field = field := by
  rw [← record.map_field_views] at mem
  exact List.mem_map.mp mem

theorem view_eq_of_key (mem : view ∈ record.views) (mem' : other ∈ record.views)
    (same : view.field.key = other.field.key) : view = other := by
  have distinct := record.nodup_keys
  rw [← record.map_field_views, List.map_map] at distinct
  exact List.inj_on_of_nodup_map distinct mem mem' same

/-- Setting a field leaves the other ones as they are. -/
theorem get_set_of_ne (mem : view ∈ record.views) (mem' : other ∈ record.views) (apart : other ≠ view)
    (state : record.Draft) (data : view.field.form.Data) :
    other.get (view.set state data) = other.get state := by
  cases record <;>
    simp only [views, List.mem_cons, List.not_mem_nil, or_false] at mem mem' <;>
    rcases mem with rfl | rfl | rfl | rfl | rfl | rfl <;>
    rcases mem' with rfl | rfl | rfl | rfl | rfl | rfl <;>
    first
      | exact absurd rfl apart
      | rfl

/-- The fields are all there is in a record. -/
theorem eq_of_get (same : ∀ view ∈ record.views, view.get state = view.get state') :
    state = state' := by
  cases record <;> simp only [views, List.forall_mem_cons] at same <;> cases state <;> cases state'
  case settings =>
    obtain ⟨precedence, warnOnDuplicate, -⟩ := same
    cases precedence
    cases warnOnDuplicate
    rfl
  case usage =>
    obtain ⟨pattern, permission, executes, -⟩ := same
    cases pattern
    cases permission
    cases executes
    rfl
  case command =>
    obtain ⟨name, aliases, permission, runs, usages, subcommands, -⟩ := same
    cases name
    cases aliases
    cases permission
    cases runs
    cases usages
    cases subcommands
    rfl
  case manifest =>
    obtain ⟨settings, commands, -⟩ := same
    cases settings
    cases commands
    rfl

/-- A known key sets the field that it names. -/
theorem step_key (mem : view ∈ record.views) (value : Value) :
    record.step state (view.field.key, value) =
      (do return view.set state (← view.field.form.decode value)) := by
  cases record <;>
    simp only [views, List.mem_cons, List.not_mem_nil, or_false] at mem <;>
    rcases mem with rfl | rfl | rfl | rfl | rfl | rfl
  -- Aliases and usages are lists, which the decoders take apart before the elements are decoded.
  case command.inr.inl => exact (bind_assoc (elements value) _ _).symm
  case command.inr.inr.inr.inr.inl => exact (bind_assoc (elements value) _ _).symm
  -- Lists of commands have a decoder of their own, as they are recursive.
  case command.inr.inr.inr.inr.inr =>
    exact congrArg (· >>= _) (DeclaredCommand.decodeAll_eq value)
  case manifest.inr => exact congrArg (· >>= _) (DeclaredCommand.decodeAll_eq value)
  all_goals rfl

/-- A key that names no field is refused. -/
theorem step_unknown {key : String} (unknown : ∀ field ∈ record.fields, field.key ≠ key)
    (state : record.Draft) (value : Value) :
    ∃ known, record.step state (key, value) = .error (.unknownField key known) := by
  -- In each decoder the last equation applies, the one for keys that are none of those before.
  cases record <;> simp only [fields, List.forall_mem_cons] at unknown
  case settings =>
    obtain ⟨precedence, warnOnDuplicate, -⟩ := unknown
    exact ⟨_, Settings.decodeField.eq_3 _ _ _ precedence.symm warnOnDuplicate.symm⟩
  case usage =>
    obtain ⟨pattern, permission, executes, -⟩ := unknown
    exact ⟨_, DeclaredUsage.decodeField.eq_4 _ _ _ pattern.symm permission.symm executes.symm⟩
  case command =>
    obtain ⟨name, aliases, permission, runs, usages, subcommands, -⟩ := unknown
    refine ⟨DeclaredCommand.fieldNames, (if_neg subcommands.symm).trans ?_⟩
    exact DeclaredCommand.decodeField.eq_6 _ _ _ name.symm aliases.symm permission.symm runs.symm
      usages.symm
  case manifest =>
    obtain ⟨settings, commands, -⟩ := unknown
    exact ⟨_, Declared.decodeField.eq_3 _ _ _ settings.symm commands.symm⟩

theorem step_eq_ok_iff {entry : String × Value} :
    record.step state entry = .ok state' ↔ ∃ view ∈ record.views, view.field.key = entry.1 ∧
      ∃ data, view.field.form.decode entry.2 = .ok data ∧ view.set state data = state' := by
  obtain ⟨key, value⟩ := entry
  constructor
  · intro stepped
    by_cases known : ∃ field ∈ record.fields, field.key = key
    · obtain ⟨_, declared, rfl⟩ := known
      obtain ⟨view, mem, rfl⟩ := exists_view declared
      rw [step_key mem, bind_eq_ok_iff] at stepped
      obtain ⟨data, decoded, set⟩ := stepped
      exact ⟨view, mem, rfl, data, decoded, Except.ok.inj set⟩
    · push Not at known
      obtain ⟨_, refused⟩ := step_unknown known state value
      rw [refused] at stepped
      contradiction
  · rintro ⟨view, mem, rfl, data, decoded, rfl⟩
    rw [step_key mem, bind_eq_ok_iff]
    exact ⟨data, decoded, rfl⟩

/-! ### Tables -/

/-- An entry gives a field of a record, and its value can be decoded. -/
def Takes (record : Record) (entry : String × Value) : Prop :=
  ∃ field ∈ record.fields, field.key = entry.1 ∧ field.form.Accepts entry.2

/-- The keys of a table can be taken one after the other exactly if each of them can. -/
theorem exists_foldlM_step_iff {entries : List (String × Value)} :
    (∃ state', entries.foldlM record.step state = .ok state') ↔
      ∀ entry ∈ entries, record.Takes entry := by
  induction entries generalizing state with
  | nil => exact iff_of_true ⟨state, rfl⟩ (by simp)
  | cons entry rest ih =>
    simp only [List.foldlM_cons, bind_eq_ok_iff, step_eq_ok_iff, List.forall_mem_cons]
    constructor
    · rintro ⟨_, middle, ⟨view, mem, named, data, decoded, -⟩, run⟩
      exact ⟨⟨view.field, field_mem mem, named, data, decoded⟩, ih.mp ⟨_, run⟩⟩
    · rintro ⟨⟨_, declared, named, data, decoded⟩, others⟩
      obtain ⟨view, mem, rfl⟩ := exists_view declared
      obtain ⟨state', run⟩ := ih.mpr others
      exact ⟨state', view.set state data, ⟨view, mem, named, data, decoded, rfl⟩, run⟩

/-- What is known after the keys of a table: what its entries give, and what was known of the fields
that it does not give. -/
theorem foldlM_step_eq_ok_iff {entries : List (String × Value)}
    (distinct : (entries.map Prod.fst).Nodup) :
    entries.foldlM record.step state = .ok state' ↔
      (∀ entry ∈ entries, ∃ field ∈ record.fields, field.key = entry.1) ∧
        (∀ view ∈ record.views, ∀ value, (view.field.key, value) ∈ entries → view.Reads value state') ∧
        ∀ view ∈ record.views, view.field.key ∉ entries.map Prod.fst →
          view.get state' = view.get state := by
  induction entries generalizing state with
  | nil =>
    simp only [List.foldlM_nil, List.map_nil, List.not_mem_nil, not_false_eq_true, false_imp_iff,
      implies_true, true_imp_iff, true_and]
    constructor
    · rintro ⟨⟩ view mem
      rfl
    · intro same
      exact congrArg Except.ok (eq_of_get same).symm
  | cons entry rest ih =>
    obtain ⟨key, value⟩ := entry
    obtain ⟨fresh, distinct⟩ := List.nodup_cons.mp distinct
    rw [List.foldlM_cons, List.forall_mem_cons]
    simp only [bind_eq_ok_iff, step_eq_ok_iff, ih distinct, List.map_cons, List.mem_cons, Prod.mk.injEq,
      not_or]
    constructor
    · rintro ⟨_, ⟨view, mem, rfl, data, decoded, rfl⟩, known, written, kept⟩
      refine ⟨⟨⟨view.field, field_mem mem, rfl⟩, known⟩, ?_, ?_⟩
      · rintro other mem' given (⟨same, rfl⟩ | later)
        · -- The key does not come again, so what it set is still there in the end.
          obtain rfl := view_eq_of_key mem' mem same
          exact ⟨data, decoded, (kept other mem fresh).trans (other.get_set state data)⟩
        · exact written other mem' given later
      · rintro other mem' ⟨apart, absent⟩
        refine (kept other mem' absent).trans (get_set_of_ne mem mem' ?_ state data)
        rintro rfl
        exact apart rfl
    · rintro ⟨⟨⟨_, declared, rfl⟩, known⟩, written, kept⟩
      obtain ⟨view, mem, rfl⟩ := exists_view declared
      obtain ⟨data, decoded, got⟩ := written view mem value (.inl ⟨rfl, rfl⟩)
      refine ⟨_, ⟨view, mem, rfl, data, decoded, rfl⟩, known,
        fun other mem' given later => written other mem' given (.inr later), ?_⟩
      intro other mem' absent
      -- Of the fields that the rest does not give, the first key has set one and left the others.
      by_cases same : other = view
      · subst same
        exact got.trans (other.get_set state data).symm
      · rw [get_set_of_ne mem mem' same]
        exact kept other mem' ⟨fun named => same (view_eq_of_key mem' mem named), absent⟩

/-- Before any key has been seen, each field has what is assumed for it. -/
theorem lacks_start (mem : view ∈ record.views) : view.Lacks record.start := by
  revert view
  cases record <;> simp only [views, List.forall_mem_cons]
  case settings => exact ⟨⟨_, rfl, rfl⟩, ⟨_, rfl, rfl⟩, nofun⟩
  case usage => exact ⟨rfl, rfl, ⟨_, rfl, rfl⟩, nofun⟩
  case command => exact ⟨rfl, ⟨_, rfl, rfl⟩, rfl, ⟨_, rfl, rfl⟩, ⟨_, rfl, rfl⟩, ⟨_, rfl, rfl⟩, nofun⟩
  case manifest => exact ⟨⟨_, rfl, rfl⟩, ⟨_, rfl, rfl⟩, nofun⟩

/-- A field has what is assumed for it if it is as it was before any key has been seen. -/
theorem lacks_iff (mem : view ∈ record.views) :
    view.Lacks state ↔ view.get state = view.get record.start := by
  have start := lacks_start mem
  unfold View.Lacks at start ⊢
  cases presence : view.field.presence with
  | required =>
    simp only [presence] at start ⊢
    rw [start]
  | optional =>
    simp only [presence] at start ⊢
    rw [start]
  | assumed value =>
    simp only [presence] at start ⊢
    obtain ⟨data, decoded, got⟩ := start
    rw [View.Reads, got]
    simp [decoded]

/-! ### Whole records -/

/-- A table is decoded if its keys lead to a draft in which everything is known. -/
theorem decode_table_eq_ok_iff_foldlM {entries : List (String × Value)} {data : record.Data} :
    record.decode (.table entries) = .ok data ↔
      entries.foldlM record.step record.start = .ok (record.draft data) := by
  cases record with
  | settings => exact Iff.rfl
  | usage => exact DeclaredUsage.decode_table_eq_ok_iff
  | command => exact DeclaredCommand.decode_table_eq_ok_iff
  | manifest => exact Iff.rfl

/-- A draft is complete if it has got the required fields. -/
theorem exists_draft_iff : (∃ data, record.draft data = state) ↔
    ∀ view ∈ record.views, view.field.presence = .required → view.get state ≠ none := by
  cases record with
  -- Settings and manifests require nothing, and their drafts are complete from the start.
  | settings =>
    refine iff_of_true ⟨state, rfl⟩ ?_
    simp [views, Field.precedence, Field.warnOnDuplicate]
  | usage =>
    refine DeclaredUsage.exists_draft_iff.trans ⟨fun given => ?_, fun known => known _ (.head _) rfl⟩
    simp only [views, List.forall_mem_cons]
    exact ⟨fun _ => given, nofun, nofun, nofun⟩
  | command =>
    refine DeclaredCommand.exists_draft_iff.trans ⟨fun given => ?_, fun known => known _ (.head _) rfl⟩
    simp only [views, List.forall_mem_cons]
    exact ⟨fun _ => given, nofun, nofun, nofun, nofun, nofun, nofun⟩
  | manifest =>
    refine iff_of_true ⟨state, rfl⟩ ?_
    simp [views, Field.settings, Field.commands]

/-- The entries that write out the data of a record. -/
def entries (record : Record) (data : record.Data) : List (String × Value) :=
  record.views.filterMap (View.written? (record.draft data))

theorem toValue_eq (data : record.Data) : record.toValue data = .table (record.entries data) := by
  cases record with
  | settings => rfl
  | usage =>
    obtain ⟨pattern, permission, executes⟩ := data
    cases permission <;> rfl
  | command =>
    obtain ⟨name, aliases, permission, runs, usages, subcommands⟩ := data
    -- The entries of the subcommands are written out by recursion.
    change DeclaredCommand.toValue _ = _
    rw [DeclaredCommand.toValue, DeclaredCommand.toValues_eq]
    cases permission <;> rfl
  | manifest => rfl

theorem mem_entries_iff {data : record.Data} {entry : String × Value} :
    entry ∈ record.entries data ↔
      ∃ view ∈ record.views, view.field.key = entry.1 ∧
        ∃ part, view.get (record.draft data) = some part ∧ view.field.form.toValue part = entry.2 := by
  simp [entries, View.written?, Prod.ext_iff, and_left_comm]

theorem nodup_keys_entries (data : record.Data) : ((record.entries data).map Prod.fst).Nodup := by
  have distinct := record.nodup_keys
  rw [← record.map_field_views, List.map_map] at distinct
  refine nodup_keys_filterMap distinct ?_
  intro view entry written
  obtain ⟨_, -, rfl⟩ := Option.map_eq_some_iff.mp written
  rfl

/-- What is known of a record is what a table says: it has known keys only, the fields that it gives have
got their values, and the other ones have what is assumed. -/
structure Holds (record : Record) (table : List (String × Value)) (state : record.Draft) : Prop where
  known : ∀ entry ∈ table, ∃ field ∈ record.fields, field.key = entry.1
  written : ∀ view ∈ record.views, ∀ value, (view.field.key, value) ∈ table → view.Reads value state
  missing : ∀ view ∈ record.views, view.field.key ∉ table.map Prod.fst → view.Lacks state

/-- A table with distinct keys is decoded to what it says. -/
theorem decode_table_eq_ok_iff {table : List (String × Value)} (distinct : (table.map Prod.fst).Nodup)
    {data : record.Data} :
    record.decode (.table table) = .ok data ↔ record.Holds table (record.draft data) := by
  rw [decode_table_eq_ok_iff_foldlM, foldlM_step_eq_ok_iff distinct]
  constructor
  · rintro ⟨known, written, kept⟩
    exact ⟨known, written, fun view mem absent => (lacks_iff mem).mpr (kept view mem absent)⟩
  · rintro ⟨known, written, missing⟩
    exact ⟨known, written, fun view mem absent => (lacks_iff mem).mp (missing view mem absent)⟩

/-- A field is known after the keys of a table if it was known before or is given there. -/
theorem get_ne_none_iff {table : List (String × Value)}
    (run : table.foldlM record.step state = .ok state') (mem : view ∈ record.views) :
    view.get state' ≠ none ↔ view.get state ≠ none ∨ view.field.key ∈ table.map Prod.fst := by
  induction table generalizing state with
  | nil =>
    obtain rfl := Except.ok.inj run
    simp
  | cons entry rest ih =>
    rw [List.foldlM_cons, bind_eq_ok_iff] at run
    obtain ⟨middle, stepped, run⟩ := run
    obtain ⟨other, mem', named, data, -, rfl⟩ := step_eq_ok_iff.mp stepped
    rw [ih run, List.map_cons, List.mem_cons, ← named]
    by_cases same : view = other
    · subst same
      simp [view.get_set]
    · have apart : view.field.key ≠ other.field.key := fun equal => same (view_eq_of_key mem mem' equal)
      simp [get_set_of_ne mem' mem same, apart]

/-- A table can be decoded if its entries can be taken and no required key is missing. -/
theorem exists_decode_table_iff {table : List (String × Value)} :
    (∃ data, record.decode (.table table) = .ok data) ↔
      (∀ entry ∈ table, record.Takes entry) ∧
        ∀ field ∈ record.fields, field.presence = .required → field.key ∈ table.map Prod.fst := by
  -- The required fields are not known at the start, so they are known in the end if they are given.
  have known {state : record.Draft} (run : table.foldlM record.step record.start = .ok state) :
      (∃ data, record.draft data = state) ↔
        ∀ field ∈ record.fields, field.presence = .required → field.key ∈ table.map Prod.fst := by
    rw [exists_draft_iff, ← record.map_field_views, List.forall_mem_map]
    refine forall₂_congr fun view mem => imp_congr_right fun required => ?_
    have unknown : view.get record.start = none := by
      have start := lacks_start mem
      rwa [View.Lacks, required] at start
    rw [get_ne_none_iff run mem, unknown]
    simp
  simp only [decode_table_eq_ok_iff_foldlM]
  constructor
  · rintro ⟨data, run⟩
    exact ⟨exists_foldlM_step_iff.mp ⟨_, run⟩, (known run).mp ⟨data, rfl⟩⟩
  · rintro ⟨taken, given⟩
    obtain ⟨state, run⟩ := exists_foldlM_step_iff.mpr taken
    obtain ⟨data, rfl⟩ := (known run).mpr given
    exact ⟨data, run⟩

end Record

end Schema

end Dispatch
