import TurnObligations.Proofs.Answer
import TurnObligations.Storage.Read

/-!
Data of the form that a shape describes: a record has its fields in order under distinct names, and
nothing that an option holds is written as null.
-/

namespace TurnObligations.Storage

inductive Conforms : Alternatives → Shape → Datum → Prop
  | unit {scope} : Conforms scope .unit .unit
  | bool {scope value} : Conforms scope .bool (.bool value)
  | byte {scope value} : Conforms scope .byte (.byte value)
  | count {scope value} : Conforms scope .count (.count value)
  | index {scope value} : Conforms scope .index (.index value)
  | signed {scope value} : Conforms scope .signed (.signed value)
  | word {scope known text} (listed : known text = true) :
      Conforms scope (.word known) (.word text)
  | absent {scope item} : Conforms scope (.option item) .absent
  | present {scope item value} (shown : value.toJson ≠ .null) (held : Conforms scope item value) :
      Conforms scope (.option item) (.present value)
  | list {scope item items} (each : ∀ value ∈ items, Conforms scope item value) :
      Conforms scope (.list item) (.list items)
  | reserved {scope limit item items} (each : ∀ value ∈ items, Conforms scope item value) :
      Conforms scope (.reserved limit item) (.list items)
  | record {scope name fields values} (named : values.map Prod.fst = fields.map Prod.fst)
      (distinct : (fields.map Prod.fst).Nodup)
      (each : ∀ pair ∈ fields.zip values, Conforms scope pair.1.2 pair.2.2) :
      Conforms scope (.record name fields) (.record values)
  | variants {scope alternatives position name payload value}
      (found : alternative? alternatives name = some (position, payload))
      (held : Conforms scope payload value) :
      Conforms scope (.variants alternatives) (.variant position name value)
  | labels {scope names position name}
      (found : chooseLabel names name = .ok (.label position name)) :
      Conforms scope (.labels names) (.label position name)
  | recursive {scope alternatives position name payload value}
      (found : alternative? alternatives name = some (position, payload))
      (held : Conforms alternatives payload value) :
      Conforms scope (.recursive alternatives) (.variant position name value)
  | recur {scope position name payload value}
      (found : alternative? scope name = some (position, payload))
      (held : Conforms scope payload value) :
      Conforms scope .recur (.variant position name value)

structure FieldsConform (scope : Alternatives) (fields : List (String × Shape))
    (values : List (String × Datum)) : Prop where
  named : values.map Prod.fst = fields.map Prod.fst
  each : ∀ pair ∈ fields.zip values, Conforms scope pair.1.2 pair.2.2

namespace FieldsConform

variable {scope : Alternatives} {fields : List (String × Shape)} {values : List (String × Datum)}

theorem nil : FieldsConform scope [] [] := ⟨rfl, by simp⟩

theorem cons {name : String} {shape : Shape} {value : Datum} (held : Conforms scope shape value)
    (rest : FieldsConform scope fields values) :
    FieldsConform scope ((name, shape) :: fields) ((name, value) :: values) := by
  refine ⟨by simp [rest.named], ?_⟩
  intro pair member
  rcases List.mem_cons.mp member with rfl | later
  · exact held
  · exact rest.each pair later

theorem record {name : String} (conform : FieldsConform scope fields values)
    (distinct : (fields.map Prod.fst).Nodup) :
    Conforms scope (.record name fields) (.record values) :=
  .record conform.named distinct conform.each

end FieldsConform

theorem Conforms.recursive_of_recur {scope alternatives : Alternatives} {datum : Datum}
    (inside : Conforms alternatives .recur datum) :
    Conforms scope (.recursive alternatives) datum := by
  cases inside with
  | recur found held => exact .recursive found held

theorem chooseVariant_eq_ok {alternatives : Alternatives} {name : String}
    {found : UInt32 × Shape} (known : alternative? alternatives name = some found) :
    chooseVariant alternatives name = .ok found := by
  rw [chooseVariant, known]

/-! ### Whole numbers -/

theorem ofInteger_byte (value : UInt8) : ofInteger value.toNat .byte = .ok (.byte value) := by
  have fits : (0 ≤ (value.toNat : Int) && (value.toNat : Int) < UInt8.size) = true := by
    simpa using Int.ofNat_lt.mpr value.toNat_lt
  rw [ofInteger, if_pos fits, Int.toNat_natCast, UInt8.ofNat_toNat]

theorem ofInteger_count (value : UInt32) : ofInteger value.toNat .count = .ok (.count value) := by
  have fits : (0 ≤ (value.toNat : Int) && (value.toNat : Int) < UInt32.size) = true := by
    simpa using Int.ofNat_lt.mpr value.toNat_lt
  rw [ofInteger, if_pos fits, Int.toNat_natCast, UInt32.ofNat_toNat]

theorem ofInteger_index (value : UInt64) : ofInteger value.toNat .index = .ok (.index value) := by
  have fits : (0 ≤ (value.toNat : Int) && (value.toNat : Int) < UInt64.size) = true := by
    simpa using Int.ofNat_lt.mpr value.toNat_lt
  rw [ofInteger, if_pos fits, Int.toNat_natCast, UInt64.ofNat_toNat]

theorem ofInteger_signed (value : Int64) : ofInteger value.toInt .signed = .ok (.signed value) := by
  have fits : (Int64.minValue.toInt ≤ value.toInt && value.toInt ≤ Int64.maxValue.toInt) = true := by
    simpa using ⟨value.minValue_le_toInt, value.toInt_le⟩
  rw [ofInteger, if_pos fits, Int64.ofInt_toInt]

/-! ### Fields under their names -/

section Fields

variable {α β : Type}

theorem lookup_of_distinct {entries : List (String × α)} {key : String} {value : α}
    (distinct : (entries.map Prod.fst).Nodup) (member : (key, value) ∈ entries) :
    entries.lookup key = some value := by
  obtain ⟨before, after, rfl⟩ := List.append_of_mem member
  refine List.lookup_eq_some_iff.mpr ⟨before, after, rfl, ?_⟩
  intro earlier present
  rw [List.map_append, List.nodup_append] at distinct
  have apart := distinct.2.2 earlier.1 (List.mem_map.mpr ⟨earlier, present, rfl⟩) key (by simp)
  simpa using apart.symm

theorem mem_of_lookup {entries : List (String × α)} {key : String} {value : α}
    (found : entries.lookup key = some value) : (key, value) ∈ entries := by
  obtain ⟨before, after, rfl, _⟩ := List.lookup_eq_some_iff.mp found
  simp

theorem lookup_of_subset {slots entries : List (String × α)}
    (distinct : (entries.map Prod.fst).Nodup) (within : ∀ slot ∈ slots, slot ∈ entries)
    (covers : ∀ key ∈ entries.map Prod.fst, key ∈ slots.map Prod.fst) :
    ∀ entry ∈ entries, slots.lookup entry.1 = some entry.2 := by
  intro entry member
  have key := covers entry.1 (List.mem_map.mpr ⟨entry, member, rfl⟩)
  obtain ⟨slot, present, same⟩ := List.mem_map.mp key
  cases found : slots.lookup entry.1 with
  | none =>
      have absent := List.lookup_eq_none_iff.mp found slot present
      simp [same] at absent
  | some value =>
      have listed := lookup_of_distinct distinct (within _ (mem_of_lookup found))
      rw [lookup_of_distinct distinct member] at listed
      exact listed.symm

theorem exists_field {fields : List (String × α)} {values : List (String × β)}
    (named : values.map Prod.fst = fields.map Prod.fst) {value : String × β}
    (member : value ∈ values) :
    ∃ field, (field, value) ∈ fields.zip values ∧ field ∈ fields ∧ field.1 = value.1 := by
  induction fields generalizing values with
  | nil =>
      rw [List.map_nil, List.map_eq_nil_iff] at named
      subst named
      cases member
  | cons field fields ih =>
      cases values with
      | nil => cases member
      | cons first values =>
          simp only [List.map_cons, List.cons.injEq] at named
          rcases List.mem_cons.mp member with rfl | later
          · exact ⟨field, by simp, by simp, named.1.symm⟩
          · obtain ⟨other, beside, listed, same⟩ := ih named.2 later
            exact ⟨other, by simp [beside], by simp [listed], same⟩

theorem exists_value {fields : List (String × α)} {values : List (String × β)}
    (named : values.map Prod.fst = fields.map Prod.fst) {field : String × α} (member : field ∈ fields) :
    ∃ value ∈ values, (field, value) ∈ fields.zip values := by
  induction fields generalizing values with
  | nil => cases member
  | cons first fields ih =>
      cases values with
      | nil => cases named
      | cons value values =>
          rcases List.mem_cons.mp member with rfl | later
          · exact ⟨value, by simp, by simp⟩
          · obtain ⟨other, listed, beside⟩ := ih (List.cons.inj named).2 later
            exact ⟨other, by simp [listed], by simp [beside]⟩

end Fields

theorem assemble_eq_ok {fields : List (String × Shape)} {values : List (String × Datum)}
    {slots : Slots} (named : values.map Prod.fst = fields.map Prod.fst)
    (found : ∀ value ∈ values, slots.lookup value.1 = some value.2) :
    assemble slots fields = .ok values := by
  induction fields generalizing values with
  | nil =>
      rw [List.map_nil, List.map_eq_nil_iff] at named
      subst named
      rfl
  | cons field fields ih =>
      cases values with
      | nil => cases named
      | cons value values =>
          simp only [List.map_cons, List.cons.injEq] at named
          have head : slots.lookup field.1 = some value.2 := by
            rw [← named.1]
            exact found value (by simp)
          have tail := ih named.2 fun other member => found other (by simp [member])
          have whole : (field.1, value.2) = value := by rw [← named.1]
          simp only [assemble, head, tail, ok_bind, whole]
          rfl

end TurnObligations.Storage
