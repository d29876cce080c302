import Dispatch.Proofs.Manifest.Fields

/-!
# Strict decoding

Decoding a manifest is strict: a value is accepted where a form is declared exactly if the values at all
places below it are what is declared there. And nothing is dropped: what is written in an accepted value
is written in its data, too.

Two things are left out of account. A record may be given by an array of its fields, and a rule of
precedence by a table; values in which this happens are not considered, and neither are tables that have
a key twice, which no document has.

## Main results

* `Schema.Places.accepts` — what stands in an accepted value is accepted
* `Schema.accepts_iff` — which values are accepted
* `Schema.decode_induction` — induction over values and what they are decoded to
* `Schema.appearsIn_of_decode` — everything that is written is in the data
-/

set_option autoImplicit false

namespace Dispatch

open Toml Decode

/-- What holds of a value whenever it holds of the elements of an array and of what stands in a table holds
of all values. -/
theorem Toml.Value.induct {motive : Value → Prop}
    (step : ∀ value, (∀ elements, value = .array elements → ∀ element ∈ elements, motive element) →
      (∀ entries, value = .table entries → ∀ entry ∈ entries, motive entry.2) → motive value)
    (value : Value) : motive value := by
  apply step
  · intro elements same element mem
    exact induct step element
  · intro entries same entry mem
    exact induct step entry.2
termination_by sizeOf value
decreasing_by
  · have smaller := List.sizeOf_lt_of_mem mem
    rw [same, Value.array.sizeOf_spec]
    omega
  · have smaller := List.sizeOf_lt_of_mem mem
    obtain ⟨key, part⟩ := entry
    change sizeOf part < _
    rw [same, Value.table.sizeOf_spec]
    rw [Prod.mk.sizeOf_spec] at smaller
    omega

namespace Schema

variable {record : Record} {form inner : Form} {value part : Value}

/-! ### What is accepted -/

theorem decode_array_eq_ok_iff {elements : List Value} {items : List form.Data} :
    (Form.list form).decode (.array elements) = .ok items ↔
      List.Forall₂ (fun element item => form.decode element = .ok item) elements items :=
  mapM_eq_ok_iff

/-- A list is given by an array. -/
theorem exists_array_of_accepts (accepted : (Form.list form).Accepts value) :
    ∃ elements, value = .array elements := by
  obtain ⟨items, decoded⟩ := accepted
  cases value with
  | array elements => exact ⟨elements, rfl⟩
  | string | integer | float | boolean | dateTime | table => cases decoded

theorem accepts_array_iff {elements : List Value} :
    (Form.list form).Accepts (.array elements) ↔ ∀ element ∈ elements, form.Accepts element :=
  (exists_congr fun _ => decode_array_eq_ok_iff).trans exists_forall₂_iff

/-- A record is given by a table. -/
theorem exists_table_of_accepts (keyed : (Form.record record).IsKeyed value)
    (accepted : (Form.record record).Accepts value) : ∃ entries, value = .table entries := by
  obtain ⟨data, decoded⟩ := accepted
  cases value with
  | table entries => exact ⟨entries, rfl⟩
  | array elements => exact keyed.elim
  | string | integer | float | boolean | dateTime => cases record <;> cases decoded

/-- Where neither a list nor a record is declared, a value is decoded to the data that it writes out. -/
theorem decode_eq_ok_iff_of_bare (bare : form.IsBare) (keyed : form.IsKeyed value) {data : form.Data} :
    form.decode value = .ok data ↔ value = form.toValue data := by
  constructor
  · intro decoded
    cases form with
    | text => cases value <;> cases decoded; rfl
    | flag => cases value <;> cases decoded; rfl
    | precedence =>
      obtain ⟨name, rfl⟩ := keyed
      change Precedence.decode (.string name) = .ok data at decoded
      rw [Precedence.decode] at decoded
      split at decoded
      · rename_i precedence named
        obtain rfl := Precedence.ofName?_eq_some_iff.mp named
        cases decoded
        rfl
      · cases decoded
    | list => exact bare.elim
    | record => exact bare.elim
  · rintro rfl
    cases form with
    | text => rfl
    | flag => rfl
    | precedence => cases data <;> rfl
    | list => exact bare.elim
    | record => exact bare.elim

/-- Where neither a list nor a record is declared, a value fits if it writes out data. -/
theorem fits_iff_of_bare (bare : form.IsBare) :
    form.Fits value ↔ ∃ data, value = form.toValue data := by
  cases form with
  | text | flag | precedence => exact Iff.rfl
  | list | record => exact bare.elim

/-- An accepted value is what is declared for its place. -/
theorem fits_of_accepts (keyed : form.IsKeyed value) (accepted : form.Accepts value) :
    form.Fits value := by
  obtain bare | ⟨element, rfl⟩ | ⟨record, rfl⟩ := form.bare_or_list_or_record
  · obtain ⟨data, decoded⟩ := accepted
    exact (fits_iff_of_bare bare).mpr ⟨data, (decode_eq_ok_iff_of_bare bare keyed).mp decoded⟩
  · exact exists_array_of_accepts accepted
  · obtain ⟨entries, rfl⟩ := exists_table_of_accepts keyed accepted
    obtain ⟨taken, given⟩ := Record.exists_decode_table_iff.mp accepted
    refine ⟨entries, rfl, ?_, given⟩
    intro entry mem
    obtain ⟨field, declared, named, -⟩ := taken entry mem
    exact ⟨field, declared, named⟩

/-- What stands in an accepted value is accepted. -/
theorem Places.accepts (place : Places form value inner part) (accepted : form.Accepts value) :
    inner.Accepts part := by
  induction place with
  | self => exact accepted
  | element mem within ih => exact ih (accepts_array_iff.mp accepted _ mem)
  | entry declared mem within ih =>
    obtain ⟨taken, -⟩ := Record.exists_decode_table_iff.mp accepted
    obtain ⟨field, declared', named, accepted⟩ := taken _ mem
    obtain rfl := Record.eq_of_key declared' declared named
    exact ih accepted

/-- A value is accepted if everything in it is what is declared there. -/
theorem accepts_of_fits (fits : Everywhere Form.Fits form value)
    (keyed : Everywhere Form.IsKeyed form value) : form.Accepts value := by
  induction value using Value.induct generalizing form with
  | step value elementwise entrywise =>
    obtain bare | ⟨form, rfl⟩ | ⟨record, rfl⟩ := form.bare_or_list_or_record
    · obtain ⟨data, written⟩ := (fits_iff_of_bare bare).mp fits.here
      exact ⟨data, (decode_eq_ok_iff_of_bare bare keyed.here).mpr written⟩
    · obtain ⟨elements, rfl⟩ := fits.here
      rw [everywhere_list_iff] at fits keyed
      refine accepts_array_iff.mpr fun element mem => ?_
      exact elementwise elements rfl element mem (fits.2 element mem) (keyed.2 element mem)
    · obtain ⟨entries, rfl, known, given⟩ := fits.here
      rw [everywhere_record_iff] at fits keyed
      refine Record.exists_decode_table_iff.mpr ⟨fun entry mem => ?_, given⟩
      obtain ⟨field, declared, named⟩ := known entry mem
      have mem' : (field.key, entry.2) ∈ entries := named ▸ mem
      refine ⟨field, declared, named, ?_⟩
      exact entrywise entries rfl entry mem (fits.2 field declared _ mem')
        (keyed.2 field declared _ mem')

/-- A value is accepted exactly if everything in it is what is declared there. -/
theorem accepts_iff (keyed : Everywhere Form.IsKeyed form value) :
    form.Accepts value ↔ Everywhere Form.Fits form value := by
  constructor
  · intro accepted inner part place
    exact fits_of_accepts (keyed inner part place) (place.accepts accepted)
  · intro fits
    exact accepts_of_fits fits keyed

/-! ### What is in the data -/

/-- What is preserved by each way of decoding a value holds of all values and their data. -/
theorem decode_induction {motive : (form : Form) → Value → form.Data → Prop}
    (bare : ∀ (form : Form) data, form.IsBare → motive form (form.toValue data) data)
    (list : ∀ (form : Form) elements (items : List form.Data), List.Forall₂ (motive form) elements items →
      motive (.list form) (.array elements) items)
    (record : ∀ (record : Record) table (data : record.Data), (table.map Prod.fst).Nodup →
      record.Holds table (record.draft data) →
      (∀ view ∈ record.views, ∀ value, (view.field.key, value) ∈ table →
        ∀ item, view.field.form.decode value = .ok item → motive view.field.form value item) →
      motive (.record record) (.table table) data)
    (keyed : Everywhere Form.IsKeyed form value)
    (distinct : Everywhere Form.HasDistinctKeys form value) {data : form.Data}
    (decoded : form.decode value = .ok data) : motive form value data := by
  induction value using Value.induct generalizing form with
  | step value elementwise entrywise =>
    obtain isBare | ⟨form, rfl⟩ | ⟨kind, rfl⟩ := form.bare_or_list_or_record
    · rw [(decode_eq_ok_iff_of_bare isBare keyed.here).mp decoded]
      exact bare form data isBare
    · obtain ⟨elements, rfl⟩ := exists_array_of_accepts ⟨data, decoded⟩
      rw [everywhere_list_iff] at keyed distinct
      apply list
      have each := (List.forall₂_and_left _ _).mpr
        ⟨fun element (mem : element ∈ elements) => mem, decode_array_eq_ok_iff.mp decoded⟩
      refine each.imp ?_
      rintro element item ⟨mem, decoded⟩
      exact elementwise elements rfl element mem (keyed.2 element mem) (distinct.2 element mem) decoded
    · obtain ⟨table, rfl⟩ := exists_table_of_accepts keyed.here ⟨data, decoded⟩
      rw [everywhere_record_iff] at keyed distinct
      apply record kind table data distinct.1 ((Record.decode_table_eq_ok_iff distinct.1).mp decoded)
      intro view viewed value mem item decoded
      have declared := Record.field_mem viewed
      exact entrywise table rfl (view.field.key, value) mem (keyed.2 _ declared value mem)
        (distinct.2 _ declared value mem) decoded

/-- In a table with distinct keys, a value is found under its key. -/
theorem lookup_eq_some_iff {table : List (String × Value)} (distinct : (table.map Prod.fst).Nodup)
    {key : String} : table.lookup key = some value ↔ (key, value) ∈ table := by
  rw [List.lookup_eq_some_iff]
  constructor
  · rintro ⟨before, after, rfl, -⟩
    simp
  · intro mem
    obtain ⟨before, after, rfl⟩ := List.append_of_mem mem
    refine ⟨before, after, rfl, ?_⟩
    rw [List.map_append, List.map_cons, List.nodup_middle] at distinct
    obtain ⟨fresh, -⟩ := List.nodup_cons.mp distinct
    intro entry mem'
    apply bne_iff_ne.mpr
    rintro rfl
    exact fresh (List.mem_append_left _ (List.mem_map.mpr ⟨entry, mem', rfl⟩))

/-- Everything that is written in an accepted value is written in its data. -/
theorem appearsIn_of_decode (keyed : Everywhere Form.IsKeyed form value)
    (distinct : Everywhere Form.HasDistinctKeys form value) {data : form.Data}
    (decoded : form.decode value = .ok data) : value.AppearsIn (form.toValue data) := by
  refine decode_induction (motive := fun form value data => value.AppearsIn (form.toValue data))
    (fun form data _ => .refl _) ?_ ?_ keyed distinct decoded
  · intro form elements items each
    exact .array (List.forall₂_map_right_iff.mpr each)
  · intro record table data distinct holds each
    change (Value.table table).AppearsIn (record.toValue data)
    rw [Record.toValue_eq]
    -- A written value has been decoded, and its field is written out again.
    have written : ∀ key part, (key, part) ∈ table →
        ∃ value, (record.entries data).lookup key = some value ∧ part.AppearsIn value := by
      intro key part mem
      obtain ⟨field, declared, rfl⟩ := holds.known _ mem
      obtain ⟨view, viewed, rfl⟩ := Record.exists_view declared
      obtain ⟨item, decoded, got⟩ := holds.written view viewed part mem
      refine ⟨view.field.form.toValue item, ?_, each view viewed part mem item decoded⟩
      rw [lookup_eq_some_iff (record.nodup_keys_entries data)]
      exact Record.mem_entries_iff.mpr ⟨view, viewed, rfl, item, got, rfl⟩
    refine .table (fun key part mem => ?_) (fun key part value mem found => ?_)
    · obtain ⟨value, found, -⟩ := written key part mem
      exact ⟨value, found⟩
    · obtain ⟨value', found', appears⟩ := written key part mem
      obtain rfl := Option.some_inj.mp (found'.symm.trans found)
      exact appears

end Schema

end Dispatch
