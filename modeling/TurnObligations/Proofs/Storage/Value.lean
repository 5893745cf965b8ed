import TurnObligations.Proofs.Storage.Conforms
import TurnObligations.Storage.Value

/-!
Data that conform to a shape read back from the JSON value they are written as.
-/

namespace TurnObligations.Storage

variable {scope : Alternatives}

theorem itemReaders_eq (items : List Json) : itemReaders items = items.map valueReader := by
  induction items with
  | nil => rfl
  | cons item rest ih => rw [itemReaders, ih, List.map_cons]

theorem entryReaders_eq (entries : List (String × Json)) :
    entryReaders entries = entries.map fun entry => (entry.1, valueReader entry.2) := by
  induction entries with
  | nil => rfl
  | cons entry rest ih => rw [entryReaders, ih, List.map_cons]

theorem entryReaders_keys (entries : List (String × Json)) :
    (entryReaders entries).map Prod.fst = entries.map Prod.fst := by
  rw [entryReaders_eq, List.map_map]
  rfl

theorem valueReader_option_eq {json : Json} (shown : json ≠ .null) (item : Shape) :
    valueReader json scope (.option item) =
      (do return .present (← valueReader json scope item)) := by
  cases json with
  | null => exact absurd rfl shown
  | bool truth => rfl
  | integer number => rfl
  | fraction literal => rfl
  | text text => rfl
  | array items => rfl
  | object entries => rfl

theorem valueReader_option {json : Json} {item : Shape} {value : Datum} (shown : json ≠ .null)
    (read : valueReader json scope item = .ok value) :
    valueReader json scope (.option item) = .ok (.present value) := by
  rw [valueReader_option_eq shown, read]
  rfl

theorem mapM_readers {shape : Shape} {items : List Datum}
    (each : ∀ value ∈ items, valueReader value.toJson scope shape = .ok value) :
    ((items.map (valueReader ∘ Datum.toJson)).mapM fun read => read scope shape) = .ok items := by
  induction items with
  | nil => rfl
  | cons value rest ih =>
      have head := each value (by simp)
      have tail := ih fun other member => each other (by simp [member])
      rw [List.map_cons, List.mapM_cons, Function.comp_apply, head, ok_bind, tail]
      rfl

/-! ### Records -/

theorem lastEntries_of_distinct {α : Type} {entries : List (String × α)}
    (distinct : (entries.map Prod.fst).Nodup) : lastEntries entries = entries := by
  induction entries with
  | nil => rfl
  | cons entry rest ih =>
      obtain ⟨fresh, distinct⟩ := List.nodup_cons.mp distinct
      have alone : ¬(rest.any fun other => other.1 == entry.1) = true := by
        simpa using fresh
      rw [lastEntries, if_neg alone, ih distinct]

theorem sortEntries_perm {α : Type} {entries : List (String × α)}
    (distinct : (entries.map Prod.fst).Nodup) : (sortEntries entries).Perm entries := by
  rw [sortEntries, lastEntries_of_distinct distinct]
  exact List.mergeSort_perm ..

theorem sortEntries_singleton {α : Type} (entry : String × α) : sortEntries [entry] = [entry] := by
  simp [sortEntries, lastEntries]

theorem ofFields_eq_ok {fields : List (String × Shape)} {values : List (String × Datum)}
    {readers : List (String × ValueReader)}
    (each : ∀ reader ∈ readers, ∃ shape value, fields.lookup reader.1 = some shape ∧
      reader.2 scope shape = .ok value ∧ (reader.1, value) ∈ values) :
    ∃ slots, ofFields scope fields readers = .ok slots ∧
      slots.map Prod.fst = readers.map Prod.fst ∧ ∀ slot ∈ slots, slot ∈ values := by
  induction readers with
  | nil => exact ⟨[], rfl, rfl, by simp⟩
  | cons reader rest ih =>
      obtain ⟨shape, value, known, read, listed⟩ := each reader (by simp)
      obtain ⟨slots, done, keys, within⟩ := ih fun other member => each other (by simp [member])
      refine ⟨(reader.1, value) :: slots, ?_, by simp [keys], ?_⟩
      · simp only [ofFields, known, read, done, ok_bind]
        rfl
      · intro slot member
        rcases List.mem_cons.mp member with rfl | later
        · exact listed
        · exact within slot later

theorem valueReader_record {name : String} {fields : List (String × Shape)}
    {values : List (String × Datum)} (named : values.map Prod.fst = fields.map Prod.fst)
    (distinct : (fields.map Prod.fst).Nodup)
    (each : ∀ pair ∈ fields.zip values,
      valueReader pair.2.2.toJson scope pair.1.2 = .ok pair.2.2) :
    valueReader (Datum.record values).toJson scope (.record name fields) = .ok (.record values) := by
  have distinctValues : (values.map Prod.fst).Nodup := named ▸ distinct
  have readersOf : entryReaders (Datum.toJsonFields values) =
      values.map fun value => (value.1, valueReader value.2.toJson) := by
    rw [entryReaders_eq, Datum.toJsonFields_eq, List.map_map]
    rfl
  have keysOf : (entryReaders (Datum.toJsonFields values)).map Prod.fst = values.map Prod.fst := by
    rw [entryReaders_keys, Datum.toJsonFields_eq, List.map_map]
    rfl
  have sorted := sortEntries_perm (keysOf ▸ distinctValues)
  have readable : ∀ reader ∈ sortEntries (entryReaders (Datum.toJsonFields values)),
      ∃ shape value, fields.lookup reader.1 = some shape ∧
        reader.2 scope shape = .ok value ∧ (reader.1, value) ∈ values := by
    intro reader member
    rw [sorted.mem_iff, readersOf] at member
    obtain ⟨value, listed, rfl⟩ := List.mem_map.mp member
    obtain ⟨field, beside, known, same⟩ := exists_field named listed
    refine ⟨field.2, value.2, ?_, each _ beside, listed⟩
    rw [← same]
    exact lookup_of_distinct distinct known
  obtain ⟨slots, done, keys, within⟩ := ofFields_eq_ok readable
  have covers : ∀ key ∈ values.map Prod.fst, key ∈ slots.map Prod.fst := by
    intro key member
    rw [keys, (sorted.map Prod.fst).mem_iff, keysOf]
    exact member
  have assembled := assemble_eq_ok named (lookup_of_subset distinctValues within covers)
  simp only [Datum.toJson, valueReader, ofEntries, done, assembled, ok_bind]
  rfl

theorem valueReader_of_conforms {shape : Shape} {datum : Datum}
    (conforms : Conforms scope shape datum) : valueReader datum.toJson scope shape = .ok datum := by
  induction conforms with
  | unit => rfl
  | bool => rfl
  | byte => exact ofInteger_byte _
  | count => exact ofInteger_count _
  | index => exact ofInteger_index _
  | signed => exact ofInteger_signed _
  | word listed => exact if_pos listed
  | absent => rfl
  | present shown _ ih => exact valueReader_option shown ih
  | list _ ih =>
      simp only [Datum.toJson, valueReader, ofItems, itemReaders_eq, Datum.toJsonItems_eq,
        List.map_map, mapM_readers ih]
      rfl
  | reserved _ ih =>
      simp only [Datum.toJson, valueReader, ofItems, itemReaders_eq, Datum.toJsonItems_eq,
        List.map_map, mapM_readers ih]
      rfl
  | record named distinct _ ih => exact valueReader_record named distinct ih
  | variants found _ ih =>
      simp only [Datum.toJson, valueReader, entryReaders, sortEntries_singleton, ofEntries,
        onlyEntry, ok_bind, chooseVariant_eq_ok found, ih]
      rfl
  | labels found => exact found
  | recursive found _ ih =>
      simp only [Datum.toJson, valueReader, entryReaders, sortEntries_singleton, ofEntries,
        ofVariant, onlyEntry, ok_bind, chooseVariant_eq_ok found, ih]
      rfl
  | recur found _ ih =>
      simp only [Datum.toJson, valueReader, entryReaders, sortEntries_singleton, ofEntries,
        ofVariant, onlyEntry, ok_bind, chooseVariant_eq_ok found, ih]
      rfl

theorem ofJson_of_conforms {shape : Shape} {datum : Datum} (conforms : Conforms [] shape datum) :
    ofJson shape datum.toJson = .ok datum :=
  valueReader_of_conforms conforms

end TurnObligations.Storage
