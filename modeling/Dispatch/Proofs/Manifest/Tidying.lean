import Dispatch.Proofs.Manifest.Decoding

/-!
# Documents that declare the same

Two documents are decoded to the same data exactly if they are equal up to layout, that is, up to the
order of keys and the presence of keys that go without saying. One way, no step of tidying changes what is
decoded. The other way, every document can be tidied into the one in which its data are written out.

## Main results

* `Schema.Tidies.decode_eq_ok_iff` — tidying does not change what is decoded
* `Schema.same_of_decode` — a value is, up to layout, that in which its data are written out
* `Declared.decode_strict_lossless` — what is decoded, what it is decoded to, and when two documents are
  decoded to the same data
-/

set_option autoImplicit false

namespace Dispatch

open Toml Decode

namespace Schema

variable {record : Record} {form inner : Form} {value value' part : Value} {field : Field}
  {holds : Form → Value → Prop}

/-! ### Keys of a tidied value -/

/-- What is said of the places of a table of a record only depends on its entries. -/
theorem everywhere_table_congr {table table' : List (String × Value)}
    (here : holds (.record record) (.table table) ↔ holds (.record record) (.table table'))
    (below : ∀ field ∈ record.fields,
      (∀ value, (field.key, value) ∈ table → Everywhere holds field.form value) ↔
        ∀ value, (field.key, value) ∈ table' → Everywhere holds field.form value) :
    Everywhere holds (.record record) (.table table) ↔
      Everywhere holds (.record record) (.table table') := by
  rw [everywhere_record_iff, everywhere_record_iff]
  exact and_congr here (forall₂_congr below)

/-- One entry apart, the values under a key are those of the other entries. -/
theorem forall_given_iff {property : Value → Prop} {key key' : String}
    {before after : List (String × Value)} :
    (∀ value, (key, value) ∈ before ++ (key', part) :: after → property value) ↔
      (key = key' → property part) ∧ ∀ value, (key, value) ∈ before ++ after → property value := by
  simp only [List.mem_append, List.mem_cons, Prod.mk.injEq]
  constructor
  · intro all
    exact ⟨fun named => all part (.inr (.inl ⟨named, rfl⟩)),
      fun value mem => all value (mem.imp_right .inr)⟩
  · rintro ⟨here, others⟩ value (mem | ⟨named, rfl⟩ | mem)
    · exact others value (.inl mem)
    · exact here named
    · exact others value (.inr mem)

/-- What is assumed is a text or a flag, or an empty list, or settings of which nothing is given. -/
theorem assumed_cases (declared : field ∈ record.fields) (assumed : field.presence = .assumed value) :
    (field.form.IsBare ∧ field.form.IsKeyed value) ∨
      (∃ form, field.form = .list form ∧ value = .array []) ∨
        field.form = .record .settings ∧ value = .table [] := by
  cases record <;> simp only [Record.fields, List.mem_cons, List.not_mem_nil, or_false] at declared
  case settings =>
    rcases declared with rfl | rfl <;> cases assumed
    · exact .inl ⟨trivial, _, rfl⟩
    · exact .inl ⟨trivial, trivial⟩
  case usage =>
    rcases declared with rfl | rfl | rfl <;> cases assumed
    exact .inl ⟨trivial, trivial⟩
  case command =>
    rcases declared with rfl | rfl | rfl | rfl | rfl | rfl <;> cases assumed
    · exact .inr (.inl ⟨_, rfl, rfl⟩)
    · exact .inl ⟨trivial, trivial⟩
    · exact .inr (.inl ⟨_, rfl, rfl⟩)
    · exact .inr (.inl ⟨_, rfl, rfl⟩)
  case manifest =>
    rcases declared with rfl | rfl <;> cases assumed
    · exact .inr (.inr ⟨rfl, rfl⟩)
    · exact .inr (.inl ⟨_, rfl, rfl⟩)

theorem distinct_of_bare (bare : form.IsBare) : form.HasDistinctKeys value := by
  cases form with
  | text | flag | precedence => trivial
  | list | record => exact bare.elim

/-- No key is twice in a value that is assumed. -/
theorem distinct_of_assumed (declared : field ∈ record.fields)
    (assumed : field.presence = .assumed value) :
    Everywhere Form.HasDistinctKeys field.form value := by
  obtain ⟨bare, -⟩ | ⟨form, same, rfl⟩ | ⟨same, rfl⟩ := assumed_cases declared assumed
  · exact (everywhere_iff_of_bare bare).mpr (distinct_of_bare bare)
  · rw [same]
    exact everywhere_of_no_elements trivial
  · rw [same]
    exact everywhere_of_no_entries List.nodup_nil

/-- Tidying does not bring any key about twice. -/
theorem Tidies.distinct_iff (tidies : Tidies form value value') :
    Everywhere Form.HasDistinctKeys form value ↔ Everywhere Form.HasDistinctKeys form value' := by
  induction tidies with
  | reorder reordered =>
    apply everywhere_table_congr
    · exact (reordered.map Prod.fst).nodup_iff
    · intro field declared
      simp only [reordered.mem_iff]
  | leaveOut declared assumed fresh =>
    apply everywhere_table_congr
    · simp only [Form.HasDistinctKeys, List.map_append, List.map_cons, List.nodup_middle,
        List.nodup_cons]
      rw [List.map_append] at fresh
      exact and_iff_right fresh
    · intro other declared'
      rw [forall_given_iff]
      apply and_iff_right
      intro named
      obtain rfl := Record.eq_of_key declared' declared named
      exact distinct_of_assumed declared assumed
  | element within ih =>
    rw [everywhere_list_iff, everywhere_list_iff]
    apply and_congr Iff.rfl
    simp only [List.forall_mem_append, List.forall_mem_cons, ih]
  | entry declared within ih =>
    apply everywhere_table_congr
    · simp only [Form.HasDistinctKeys, List.map_append, List.map_cons]
    · intro other declared'
      rw [forall_given_iff, forall_given_iff]
      refine and_congr_left' (imp_congr_right fun named => ?_)
      obtain rfl := Record.eq_of_key declared' declared named
      exact ih

/-! ### Data of a tidied value -/

namespace Record

variable {view : View record.Draft} {state : record.Draft}
  {table table' before after : List (String × Value)}

theorem Holds.reorder (holds : record.Holds table state) (reordered : table.Perm table') :
    record.Holds table' state where
  known entry mem := holds.known entry (reordered.mem_iff.mpr mem)
  written view viewed value mem := holds.written view viewed value (reordered.mem_iff.mpr mem)
  missing view viewed absent := by
    rw [← (reordered.map Prod.fst).mem_iff] at absent
    exact holds.missing view viewed absent

/-- A key that goes without saying says nothing. -/
theorem holds_leaveOut_iff (viewed : view ∈ record.views)
    (assumed : view.field.presence = .assumed value)
    (fresh : view.field.key ∉ (before ++ after).map Prod.fst) :
    record.Holds (before ++ (view.field.key, value) :: after) state ↔
      record.Holds (before ++ after) state := by
  have lacks : view.Lacks state ↔ view.Reads value state := by rw [View.Lacks, assumed]
  have absent_iff (other : View record.Draft) :
      other.field.key ∉ (before ++ (view.field.key, value) :: after).map Prod.fst ↔
        other.field.key ≠ view.field.key ∧ other.field.key ∉ (before ++ after).map Prod.fst := by
    simp only [List.map_append, List.map_cons, List.mem_append, List.mem_cons]
    tauto
  constructor
  · rintro ⟨known, written, missing⟩
    refine ⟨?_, fun other viewed' => (forall_given_iff.mp (written other viewed')).2, ?_⟩
    · simp only [List.forall_mem_append, List.forall_mem_cons] at known ⊢
      exact ⟨known.1, known.2.2⟩
    · intro other viewed' absent
      by_cases named : other.field.key = view.field.key
      · -- The field itself is missing now, but what was written is assumed.
        obtain rfl := view_eq_of_key viewed' viewed named
        exact lacks.mpr ((forall_given_iff.mp (written other viewed)).1 rfl)
      · exact missing other viewed' ((absent_iff other).mpr ⟨named, absent⟩)
  · rintro ⟨known, written, missing⟩
    refine ⟨?_, ?_, ?_⟩
    · simp only [List.forall_mem_append, List.forall_mem_cons] at known ⊢
      exact ⟨known.1, ⟨view.field, field_mem viewed, rfl⟩, known.2⟩
    · intro other viewed'
      refine forall_given_iff.mpr ⟨fun named => ?_, written other viewed'⟩
      obtain rfl := view_eq_of_key viewed' viewed named
      exact lacks.mp (missing other viewed fresh)
    · intro other viewed' absent
      exact missing other viewed' ((absent_iff other).mp absent).2

/-- The value of a field may be exchanged for one that is decoded to the same. -/
theorem Holds.exchange (holds : record.Holds (before ++ (view.field.key, value) :: after) state)
    (viewed : view ∈ record.views)
    (same : ∀ data, view.field.form.decode value = .ok data →
      view.field.form.decode value' = .ok data) :
    record.Holds (before ++ (view.field.key, value') :: after) state := by
  obtain ⟨known, written, missing⟩ := holds
  refine ⟨?_, ?_, ?_⟩
  · simpa only [List.forall_mem_append, List.forall_mem_cons] using known
  · intro other viewed'
    obtain ⟨here, others⟩ := forall_given_iff.mp (written other viewed')
    refine forall_given_iff.mpr ⟨fun named => ?_, others⟩
    obtain rfl := view_eq_of_key viewed' viewed named
    obtain ⟨data, decoded, got⟩ := here rfl
    exact ⟨data, same data decoded, got⟩
  · simpa only [List.map_append, List.map_cons] using missing

end Record

/-- Related lists may differ in one element. -/
theorem forall₂_exchange {α β : Type} {related : α → β → Prop} {item item' : α} {before after : List α}
    {others : List β} (same : ∀ other, related item other ↔ related item' other) :
    List.Forall₂ related (before ++ item :: after) others ↔
      List.Forall₂ related (before ++ item' :: after) others := by
  induction before generalizing others with
  | nil => simp only [List.nil_append, List.forall₂_cons_left_iff, same]
  | cons first before ih => simp only [List.cons_append, List.forall₂_cons_left_iff, ih]

/-- Tables that say the same are decoded to the same. -/
theorem decode_table_congr {table table' : List (String × Value)}
    (distinct : (table.map Prod.fst).Nodup) (distinct' : (table'.map Prod.fst).Nodup)
    {data : record.Data}
    (same : record.Holds table (record.draft data) ↔ record.Holds table' (record.draft data)) :
    record.decode (.table table) = .ok data ↔ record.decode (.table table') = .ok data := by
  rw [Record.decode_table_eq_ok_iff distinct, Record.decode_table_eq_ok_iff distinct', same]

/-- Tidying does not change what is decoded. -/
theorem Tidies.decode_eq_ok_iff (tidies : Tidies form value value')
    (distinct : Everywhere Form.HasDistinctKeys form value) {data : form.Data} :
    form.decode value = .ok data ↔ form.decode value' = .ok data := by
  -- Only of tables with distinct keys it is known what they are decoded to.
  have distinct' := tidies.distinct_iff.mp distinct
  induction tidies with
  | reorder reordered =>
    apply decode_table_congr distinct.here distinct'.here
    exact ⟨fun holds => holds.reorder reordered, fun holds => holds.reorder reordered.symm⟩
  | leaveOut declared assumed fresh =>
    obtain ⟨view, viewed, rfl⟩ := Record.exists_view declared
    apply decode_table_congr distinct.here distinct'.here
    exact Record.holds_leaveOut_iff viewed assumed fresh
  | element within ih =>
    rw [everywhere_list_iff] at distinct distinct'
    refine decode_array_eq_ok_iff.trans (Iff.trans ?_ decode_array_eq_ok_iff.symm)
    exact forall₂_exchange fun item => ih (distinct.2 _ (by simp)) (distinct'.2 _ (by simp))
  | entry declared within ih =>
    obtain ⟨view, viewed, rfl⟩ := Record.exists_view declared
    rw [everywhere_record_iff] at distinct distinct'
    have same (item : view.field.form.Data) :=
      @ih (distinct.2 _ declared _ (by simp)) item (distinct'.2 _ declared _ (by simp))
    apply decode_table_congr distinct.1 distinct'.1
    exact ⟨fun holds => holds.exchange viewed fun item => (same item).mp,
      fun holds => holds.exchange viewed fun item => (same item).mpr⟩

/-! ### Equal up to layout -/

namespace SameUpToLayout

theorem distinct_iff (same : SameUpToLayout form value value') :
    Everywhere Form.HasDistinctKeys form value ↔ Everywhere Form.HasDistinctKeys form value' := by
  induction same with
  | rel value value' tidies => exact tidies.distinct_iff
  | refl value => exact Iff.rfl
  | symm value value' same ih => exact ih.symm
  | trans value middle value' same same' ih ih' => exact ih.trans ih'

/-- Values that are equal up to layout are decoded to the same data. -/
theorem decode_eq_ok_iff (same : SameUpToLayout form value value')
    (distinct : Everywhere Form.HasDistinctKeys form value) {data : form.Data} :
    form.decode value = .ok data ↔ form.decode value' = .ok data := by
  induction same with
  | rel value value' tidies => exact tidies.decode_eq_ok_iff distinct
  | refl value => exact Iff.rfl
  | symm value value' same ih => exact (ih (distinct_iff same |>.mpr distinct)).symm
  | trans value middle value' same same' ih ih' =>
    exact (ih distinct).trans (ih' ((distinct_iff same).mp distinct))

/-- What can be tidied inside of a frame can be tidied any number of times. -/
theorem lift {outer : Form} (same : SameUpToLayout form value value') (frame : Value → Value)
    (lifts : ∀ value value', Tidies form value value' → Tidies outer (frame value) (frame value')) :
    SameUpToLayout outer (frame value) (frame value') := by
  induction same with
  | rel value value' tidies => exact .rel _ _ (lifts value value' tidies)
  | refl value => exact .refl _
  | symm value value' same ih => exact .symm _ _ ih
  | trans value middle value' same same' ih ih' => exact .trans _ _ _ ih ih'

/-- If a list in a frame may differ in one element, then it may differ in all of them. -/
theorem of_exchanges {α : Type} {outer : Form} {alike : α → α → Prop} (frame : List α → Value)
    (exchange : ∀ before item item' after, alike item item' → SameUpToLayout outer
      (frame (before ++ item :: after)) (frame (before ++ item' :: after)))
    {items items' : List α} (each : List.Forall₂ alike items items') :
    SameUpToLayout outer (frame items) (frame items') := by
  -- Elements are exchanged from the front, so the induction is for any beginning.
  suffices general : ∀ before, SameUpToLayout outer (frame (before ++ items)) (frame (before ++ items'))
    from general []
  induction each with
  | nil => exact fun before => .refl _
  | @cons item item' rest rest' first each ih =>
    intro before
    refine .trans _ _ _ (exchange before item item' rest first) ?_
    rw [List.append_cons before item' rest, List.append_cons before item' rest']
    exact ih (before ++ [item'])

/-- Arrays are equal up to layout if their elements are. -/
theorem array {elements elements' : List Value}
    (each : List.Forall₂ (SameUpToLayout form) elements elements') :
    SameUpToLayout (.list form) (.array elements) (.array elements') := by
  refine of_exchanges Value.array (fun before element element' after same => ?_) each
  exact same.lift (fun value => .array (before ++ value :: after)) fun _ _ => .element

/-- Tables are equal up to layout if they have the same keys and their values are. -/
theorem table {table table' : List (String × Value)}
    (each : List.Forall₂ (fun entry entry' => entry'.1 = entry.1 ∧ ∃ field ∈ record.fields,
      field.key = entry.1 ∧ SameUpToLayout field.form entry.2 entry'.2) table table') :
    SameUpToLayout (.record record) (.table table) (.table table') := by
  refine of_exchanges Value.table ?_ each
  rintro before ⟨key, value⟩ ⟨key', value'⟩ after ⟨rfl, field, declared, rfl, same⟩
  exact same.lift (fun value => .table (before ++ (field.key, value) :: after)) fun _ _ => .entry declared

/-- Keys that go without saying may be left out together. -/
theorem leaveOut (table : List (String × Value)) {extra : List (String × Value)}
    (assumed : ∀ entry ∈ extra, ∃ field ∈ record.fields, field.key = entry.1 ∧
      field.presence = .assumed entry.2)
    (distinct : ((table ++ extra).map Prod.fst).Nodup) :
    SameUpToLayout (.record record) (.table (table ++ extra)) (.table table) := by
  -- They are left out from the front; what remains has the same keys before it.
  induction extra with
  | nil =>
    rw [List.append_nil]
    exact .refl _
  | cons entry extra ih =>
    obtain ⟨key, value⟩ := entry
    rw [List.forall_mem_cons] at assumed
    obtain ⟨⟨field, declared, rfl, assumed⟩, others⟩ := assumed
    rw [List.map_append, List.map_cons, List.nodup_middle, ← List.map_append] at distinct
    obtain ⟨fresh, distinct⟩ := List.nodup_cons.mp distinct
    exact .trans _ _ _ (.rel _ _ (.leaveOut declared assumed fresh)) (ih others distinct)

/-- What is assumed for a field is, up to layout, that in which it is written out. -/
theorem of_assumed (declared : field ∈ record.fields) (assumed : field.presence = .assumed value)
    {data : field.form.Data} (decoded : field.form.decode value = .ok data) :
    SameUpToLayout field.form value (field.form.toValue data) := by
  have source := assumed_cases declared assumed
  obtain ⟨key, form, presence⟩ := field
  obtain ⟨bare, keyed⟩ | ⟨form', same, rfl⟩ | ⟨same, rfl⟩ := source
  · rw [(decode_eq_ok_iff_of_bare bare keyed).mp decoded]
    exact .refl _
  · obtain rfl : form = .list form' := same
    obtain rfl := Except.ok.inj decoded
    exact .refl _
  · obtain rfl : form = .record .settings := same
    obtain rfl := Except.ok.inj decoded
    -- All settings are assumed in an empty table.
    have assumed : ∀ entry ∈ Record.settings.entries ({} : Settings),
        ∃ field ∈ Record.settings.fields, field.key = entry.1 ∧ field.presence = .assumed entry.2 := by
      refine List.forall_mem_cons.mpr ⟨⟨.precedence, .head _, rfl, rfl⟩, ?_⟩
      exact List.forall_mem_singleton.mpr ⟨.warnOnDuplicate, .tail _ (.head _), rfl, rfl⟩
    exact .symm _ _ (leaveOut [] assumed (Record.settings.nodup_keys_entries _))

end SameUpToLayout

/-- The entry that goes without saying if a table does not give a field. -/
def Field.unsaid? (table : List (String × Value)) (field : Field) : Option (String × Value) :=
  match field.presence with
  | .assumed value => if field.key ∈ table.map Prod.fst then none else some (field.key, value)
  | _ => none

theorem Field.unsaid?_eq_some_iff {table : List (String × Value)} {entry : String × Value} :
    field.unsaid? table = some entry ↔
      field.key ∉ table.map Prod.fst ∧ field.key = entry.1 ∧ field.presence = .assumed entry.2 := by
  obtain ⟨key, value⟩ := entry
  rw [unsaid?]
  cases field.presence with
  | required => simp
  | optional => simp
  | assumed value => simp [and_comm, and_assoc]

/-- A table to which everything has been added that goes without saying. -/
def Record.filled (record : Record) (table : List (String × Value)) : List (String × Value) :=
  table ++ record.fields.filterMap (Field.unsaid? table)

namespace Record

variable {table : List (String × Value)}

theorem nodup_keys_filled (distinct : (table.map Prod.fst).Nodup) :
    ((record.filled table).map Prod.fst).Nodup := by
  rw [filled, List.map_append]
  refine List.nodup_append.mpr ⟨distinct, ?_, ?_⟩
  · apply nodup_keys_filterMap record.nodup_keys
    intro field entry unsaid
    obtain ⟨-, named, -⟩ := Field.unsaid?_eq_some_iff.mp unsaid
    exact named.symm
  · rintro key given _ mem rfl
    obtain ⟨entry, added, rfl⟩ := List.mem_map.mp mem
    obtain ⟨field, -, unsaid⟩ := List.mem_filterMap.mp added
    obtain ⟨fresh, named, -⟩ := Field.unsaid?_eq_some_iff.mp unsaid
    exact fresh (named ▸ given)

theorem same_filled (distinct : (table.map Prod.fst).Nodup) :
    SameUpToLayout (.record record) (.table (record.filled table)) (.table table) := by
  refine .leaveOut table ?_ (nodup_keys_filled distinct)
  intro entry mem
  obtain ⟨field, declared, unsaid⟩ := List.mem_filterMap.mp mem
  obtain ⟨-, named, assumed⟩ := Field.unsaid?_eq_some_iff.mp unsaid
  exact ⟨field, declared, named, assumed⟩

variable {view : View record.Draft} {state : record.Draft} {data : record.Data}

/-- A field that is known is given by the table or goes without saying. -/
theorem mem_keys_filled (holds : record.Holds table state) (viewed : view ∈ record.views)
    (known : view.get state ≠ none) : view.field.key ∈ (record.filled table).map Prod.fst := by
  rw [filled, List.map_append]
  by_cases given : view.field.key ∈ table.map Prod.fst
  · exact List.mem_append_left _ given
  · have lacks := holds.missing view viewed given
    rw [View.Lacks] at lacks
    split at lacks
    · rename_i value assumed
      have unsaid : view.field.unsaid? table = some (view.field.key, value) :=
        Field.unsaid?_eq_some_iff.mpr ⟨given, rfl, assumed⟩
      refine List.mem_append_right _ (List.mem_map.mpr ⟨(view.field.key, value), ?_, rfl⟩)
      exact List.mem_filterMap.mpr ⟨view.field, field_mem viewed, unsaid⟩
    · contradiction
    · contradiction

/-- A field has got what the table says about it, or what goes without saying. -/
theorem reads_of_mem_filled (holds : record.Holds table state) {entry : String × Value}
    (mem : entry ∈ record.filled table) :
    ∃ view ∈ record.views, view.field.key = entry.1 ∧ view.Reads entry.2 state ∧
      (entry ∈ table ∨ view.field.presence = .assumed entry.2) := by
  obtain ⟨key, value⟩ := entry
  rcases List.mem_append.mp mem with given | added
  · obtain ⟨field, declared, rfl⟩ := holds.known _ given
    obtain ⟨view, viewed, rfl⟩ := exists_view declared
    exact ⟨view, viewed, rfl, holds.written view viewed value given, .inl given⟩
  · obtain ⟨field, declared, unsaid⟩ := List.mem_filterMap.mp added
    obtain ⟨view, viewed, rfl⟩ := exists_view declared
    obtain ⟨fresh, named, assumed⟩ := Field.unsaid?_eq_some_iff.mp unsaid
    have lacks := holds.missing view viewed fresh
    rw [View.Lacks, assumed] at lacks
    exact ⟨view, viewed, named, lacks, .inr assumed⟩

/-- A table is, up to layout, that in which its data are written out, if this holds of its values. -/
theorem same_entries (distinct : (table.map Prod.fst).Nodup)
    (holds : record.Holds table (record.draft data))
    (each : ∀ view ∈ record.views, ∀ value, (view.field.key, value) ∈ table →
      ∀ item, view.field.form.decode value = .ok item →
        SameUpToLayout view.field.form value (view.field.form.toValue item)) :
    SameUpToLayout (.record record) (.table table) (.table (record.entries data)) := by
  -- Each entry that is given or goes without saying has a counterpart where the data are written out.
  have counterpart : ∀ entry ∈ record.filled table, ∃ entry', entry' ∈ record.entries data ∧
      entry'.1 = entry.1 ∧ ∃ field ∈ record.fields, field.key = entry.1 ∧
        SameUpToLayout field.form entry.2 entry'.2 := by
    rintro ⟨key, value⟩ mem
    obtain ⟨view, viewed, rfl, ⟨item, decoded, got⟩, source⟩ := reads_of_mem_filled holds mem
    refine ⟨(view.field.key, view.field.form.toValue item), ?_, rfl, view.field, field_mem viewed, rfl,
      ?_⟩
    · exact mem_entries_iff.mpr ⟨view, viewed, rfl, item, got, rfl⟩
    · cases source with
      | inl given => exact each view viewed value given item decoded
      | inr assumed => exact .of_assumed (field_mem viewed) assumed decoded
  obtain ⟨table', tidied⟩ := exists_forall₂_iff.mpr counterpart
  have sameKeys : table'.map Prod.fst = (record.filled table).map Prod.fst :=
    (map_eq_map_of_forall₂ tidied fun _ _ both => both.2.1.symm).symm
  have written := record.nodup_keys_entries data
  have distinct' : (table'.map Prod.fst).Nodup := sameKeys ▸ nodup_keys_filled distinct
  have among : ∀ entry ∈ table', entry ∈ record.entries data :=
    ((List.forall₂_and_left _ _).mp tidied.flip).1
  -- All of them are counterparts, as their keys are given or go without saying.
  have reordered : table'.Perm (record.entries data) := by
    rw [List.perm_ext_iff_of_nodup distinct'.of_map written.of_map]
    refine fun entry => ⟨among entry, fun mem => ?_⟩
    obtain ⟨view, viewed, named, item, got, -⟩ := mem_entries_iff.mp mem
    have given := mem_keys_filled holds viewed (by simp [got])
    rw [← sameKeys, named] at given
    obtain ⟨entry', mem', same⟩ := List.mem_map.mp given
    obtain rfl := List.inj_on_of_nodup_map written (among entry' mem') mem same
    exact mem'
  have same : SameUpToLayout (.record record) (.table (record.filled table)) (.table table') :=
    .table (tidied.imp fun _ _ both => both.2)
  exact .trans _ _ _ (.symm _ _ (same_filled distinct))
    (.trans _ _ _ same (.rel _ _ (.reorder reordered)))

end Record

/-- A value is, up to layout, that in which its data are written out. -/
theorem same_of_decode (keyed : Everywhere Form.IsKeyed form value)
    (distinct : Everywhere Form.HasDistinctKeys form value) {data : form.Data}
    (decoded : form.decode value = .ok data) : SameUpToLayout form value (form.toValue data) := by
  refine decode_induction (motive := fun form value data => SameUpToLayout form value (form.toValue data))
    (fun form data _ => .refl _) ?_ ?_ keyed distinct decoded
  · intro form elements items each
    exact .array (List.forall₂_map_right_iff.mpr each)
  · intro record table data distinct holds each
    change SameUpToLayout (.record record) (.table table) (record.toValue data)
    rw [Record.toValue_eq]
    exact Record.same_entries distinct holds each

/-- Values are decoded to the same data exactly if they are equal up to layout. -/
theorem decode_eq_ok_iff_same (keyed : Everywhere Form.IsKeyed form value)
    (keyed' : Everywhere Form.IsKeyed form value')
    (distinct : Everywhere Form.HasDistinctKeys form value)
    (distinct' : Everywhere Form.HasDistinctKeys form value') {data : form.Data}
    (decoded : form.decode value = .ok data) :
    form.decode value' = .ok data ↔ SameUpToLayout form value value' := by
  constructor
  · intro decoded'
    exact .trans _ _ _ (same_of_decode keyed distinct decoded)
      (.symm _ _ (same_of_decode keyed' distinct' decoded'))
  · intro same
    exact (same.decode_eq_ok_iff distinct).mp decoded

end Schema

/-! ### Manifests -/

namespace Declared

open Schema

/-- Decoding a manifest is strict and drops nothing. A document is decoded exactly if everything in it is
what is declared there, so a key that is not known is refused at any depth. All that is written is in the
data, the data can be written out and decoded again, and another document is decoded to them exactly if it
differs only in the order of keys and in keys that go without saying. -/
theorem decode_strict_lossless {entries : List (String × Value)}
    (keyed : Everywhere Form.IsKeyed (.record .manifest) (.table entries))
    (distinct : Everywhere Form.HasDistinctKeys (.record .manifest) (.table entries)) :
    ((∃ declared, Declared.decode entries = .ok declared) ↔
        Everywhere Form.Fits (.record .manifest) (.table entries)) ∧
      (∀ declared, Declared.decode entries = .ok declared →
        (Value.table entries).AppearsIn declared.toValue ∧
          (∃ written, declared.toValue = .table written ∧ Declared.decode written = .ok declared) ∧
          ∀ entries', Everywhere Form.IsKeyed (.record .manifest) (.table entries') →
            Everywhere Form.HasDistinctKeys (.record .manifest) (.table entries') →
              (Declared.decode entries' = .ok declared ↔
                SameUpToLayout (.record .manifest) (.table entries) (.table entries'))) ∧
      ∀ record table key, Places (.record .manifest) (.table entries) (.record record) (.table table) →
        key ∈ table.map Prod.fst → (∀ field ∈ record.fields, field.key ≠ key) →
          ∃ misfit, Declared.decode entries = .error misfit := by
  have strict : (∃ declared, Declared.decode entries = .ok declared) ↔
      Everywhere Form.Fits (.record .manifest) (.table entries) := accepts_iff keyed
  refine ⟨strict, ?_, ?_⟩
  · intro declared decoded
    have same := same_of_decode keyed distinct decoded
    have again := (same.decode_eq_ok_iff distinct).mp decoded
    refine ⟨appearsIn_of_decode keyed distinct decoded, ⟨_, rfl, again⟩, ?_⟩
    intro entries' keyed' distinct'
    exact decode_eq_ok_iff_same keyed keyed' distinct distinct' decoded
  · intro record table key place given unknown
    cases decoded : Declared.decode entries with
    | error misfit => exact ⟨misfit, rfl⟩
    | ok declared =>
      obtain ⟨_, ⟨⟩, known, -⟩ := strict.mp ⟨declared, decoded⟩ _ _ place
      obtain ⟨entry, mem, rfl⟩ := List.mem_map.mp given
      obtain ⟨field, declared, named⟩ := known entry mem
      exact absurd named (unknown field declared)

/-- An example: a command with a permission, which is written under some key. -/
def bell (key : String) : List (String × Value) :=
  [("commands", .array [.table [("name", .string "bell"), (key, .string "staff")]])]

/-- The example in another layout. -/
def tidyBell : List (String × Value) :=
  [("graph", .table [("duplicate_terminal", .string "last_wins")]),
    ("commands", .array [.table [("aliases", .array []), ("permission", .string "staff"),
      ("name", .string "bell")]])]

/-- The permission of the example is kept in either layout, and a slip in its key is noticed. -/
theorem bell_kept : (∃ declared, Declared.decode (bell "permission") = .ok declared ∧
      (Value.table (bell "permission")).AppearsIn declared.toValue ∧
      Declared.decode tidyBell = .ok declared) ∧
    SameUpToLayout (.record .manifest) (.table (bell "permission")) (.table tidyBell) ∧
    ∃ misfit, Declared.decode (bell "permision") = .error misfit := by
  have text := @everywhere_iff_of_bare .text
  have precedence := @everywhere_iff_of_bare .precedence
  have keyed : Everywhere Form.IsKeyed (.record .manifest) (.table (bell "permission")) ∧
      Everywhere Form.IsKeyed (.record .manifest) (.table (bell "permision")) ∧
      Everywhere Form.IsKeyed (.record .manifest) (.table tidyBell) := by
    simp [bell, tidyBell, everywhere_record_iff, everywhere_list_iff, text trivial, precedence trivial,
      Record.fields, Field.precedence, Field.warnOnDuplicate, Field.settings, Field.commands, Field.name,
      Field.aliases, Field.permission, Field.runs, Field.usages, Field.subcommands, Form.IsKeyed]
  have distinct : Everywhere Form.HasDistinctKeys (.record .manifest) (.table (bell "permission")) ∧
      Everywhere Form.HasDistinctKeys (.record .manifest) (.table (bell "permision")) ∧
      Everywhere Form.HasDistinctKeys (.record .manifest) (.table tidyBell) := by
    simp [bell, tidyBell, everywhere_record_iff, everywhere_list_iff, text trivial, precedence trivial,
      Record.fields, Field.precedence, Field.warnOnDuplicate, Field.settings, Field.commands,
      Field.name, Field.aliases, Field.permission, Field.runs, Field.usages, Field.subcommands,
      Form.HasDistinctKeys]
  obtain ⟨-, lossless, -⟩ := decode_strict_lossless keyed.1 distinct.1
  obtain ⟨-, -, strict⟩ := decode_strict_lossless keyed.2.1 distinct.2.1
  obtain ⟨appears, -, same⟩ := lossless ⟨{}, [⟨"bell", [], some "staff", false, [], []⟩]⟩ rfl
  refine ⟨⟨_, rfl, appears, rfl⟩, (same tidyBell keyed.2.2 distinct.2.2).mp rfl, ?_⟩
  refine strict .command [("name", .string "bell"), ("permision", .string "staff")] "permision" ?_
    (by simp) ?_
  · exact .entry (.tail _ (.head _)) (.head _) (.element (.head _) (.self _ _))
  · simp [Record.fields, Field.name, Field.aliases, Field.permission, Field.runs, Field.usages,
      Field.subcommands]

end Declared

end Dispatch
