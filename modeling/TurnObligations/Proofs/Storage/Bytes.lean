import TurnObligations.Proofs.Storage.Lawful

/-!
Snapshots give back what was written, whatever bytes follow it. Nothing in the bytes tells the kinds
of values apart, so this needs a shape whose positions fit their words and whose lists hold items that
take room.
-/

namespace TurnObligations

namespace Shape

def isSolid : Shape → Bool
  | .unit | .record .. => false
  | _ => true

/-- Every value takes a byte or more, a record by one of its own fields. -/
def occupies : Shape → Bool
  | .record _ fields => fields.any fun field => field.2.isSolid
  | shape => shape.isSolid

mutual

/-- Values can be written and found again. -/
def packs : Shape → Bool
  | .option item => packs item
  | .list item => item.occupies && packs item
  | .reserved limit item => Snapshot.sizeLimit ≤ limit && item.occupies && packs item
  | .record _ fields => packsAll fields
  | .variants alternatives | .recursive alternatives =>
      alternatives.length ≤ UInt32.size && packsAll alternatives
  | .labels names => names.length ≤ UInt32.size
  | _ => true

def packsAll : List (String × Shape) → Bool
  | [] => true
  | (_, shape) :: rest => packs shape && packsAll rest

end

theorem packs_of_mem {fields : List (String × Shape)} (all : packsAll fields = true)
    {field : String × Shape} (member : field ∈ fields) : field.2.packs = true := by
  induction fields with
  | nil => cases member
  | cons first rest ih =>
      simp only [packsAll, Bool.and_eq_true] at all
      rcases List.mem_cons.mp member with rfl | later
      · exact all.1
      · exact ih all.2 later

end Shape

namespace Snapshot

open Storage (Alternatives Conforms alternative? chooseLabel exists_value)

/-! ### Room -/

theorem length_write_le_of_mem {item : Datum} {items : List Datum} (member : item ∈ items) :
    (write item).length ≤ (writeItems items).length := by
  induction items with
  | nil => cases member
  | cons first rest ih =>
      simp only [writeItems, List.length_append]
      rcases List.mem_cons.mp member with rfl | later
      · omega
      · have within := ih later
        omega

theorem length_write_le_of_field {field : String × Datum} {fields : List (String × Datum)}
    (member : field ∈ fields) : (write field.2).length ≤ (writeFields fields).length := by
  induction fields with
  | nil => cases member
  | cons first rest ih =>
      simp only [writeFields, List.length_append]
      rcases List.mem_cons.mp member with rfl | later
      · omega
      · have within := ih later
        omega

theorem length_le_writeItems {items : List Datum} (each : ∀ item ∈ items, 0 < (write item).length) :
    items.length ≤ (writeItems items).length := by
  induction items with
  | nil => exact Nat.zero_le _
  | cons item rest ih =>
      have first := each item (by simp)
      have others := ih fun other member => each other (by simp [member])
      simp only [writeItems, List.length_append, List.length_cons]
      omega

theorem write_pos_of_solid {scope : Alternatives} {shape : Shape} {datum : Datum}
    (conforms : Conforms scope shape datum) (solid : shape.isSolid = true) :
    0 < (write datum).length := by
  cases conforms with
  | unit => cases solid
  | record => cases solid
  | _ =>
      simp only [write, List.length_cons, List.length_append, length_littleEndian, List.length_nil]
      omega

theorem write_pos {scope : Alternatives} {shape : Shape} {datum : Datum}
    (conforms : Conforms scope shape datum) (occupies : shape.occupies = true) :
    0 < (write datum).length := by
  cases shape with
  | record name fields =>
      cases conforms with
      | record named distinct each =>
          obtain ⟨field, member, solid⟩ := List.any_eq_true.mp occupies
          obtain ⟨value, listed, beside⟩ := exists_value named member
          have taken := write_pos_of_solid (each _ beside) solid
          exact Nat.lt_of_lt_of_le taken (length_write_le_of_field listed)
  | _ => exact write_pos_of_solid conforms occupies

theorem lt_word_of_small {size : Nat} (small : size < sizeLimit) : size < UInt64.size :=
  Nat.lt_of_lt_of_le small (by decide)

/-! ### Readers of what was written -/

theorem readWord4 (value : UInt32) (rest : List UInt8) :
    readWord 4 (littleEndian 4 value.toNat ++ rest) = .ok (value.toNat, rest) :=
  readWord_littleEndian 4 value.toNat value.toNat_lt rest

theorem readWord8 {value : Nat} (bound : value < UInt64.size) (rest : List UInt8) :
    readWord 8 (littleEndian 8 value ++ rest) = .ok (value, rest) :=
  readWord_littleEndian 8 value bound rest

theorem fromUTF8?_toUTF8 (text : String) : String.fromUTF8? text.toUTF8 = some text := by
  exact dif_pos text.isValidUTF8

theorem readUtf8_toUTF8 (text : String) (rest : List UInt8) :
    readUtf8 text.toUTF8.size (text.toUTF8.data.toList ++ rest) = .ok (text, rest) := by
  have size : text.toUTF8.data.toList.length = text.toUTF8.size := Array.length_toList
  have room : ¬(text.toUTF8.data.toList ++ rest).length < text.toUTF8.size := by
    simp only [List.length_append, size]
    omega
  rw [readUtf8, if_neg room, ← size, List.take_left, List.drop_left, Array.toArray_toList,
    fromUTF8?_toUTF8]

def Reads (knot : Reader Datum) (shape : Shape) (datum : Datum) : Prop :=
  ∀ rest, read knot shape (write datum ++ rest) = .ok (datum, rest)

section Readers

variable {knot : Reader Datum}

theorem reads_word {known : String → Bool} {text : String} (listed : known text = true)
    (bound : text.toUTF8.size < UInt64.size) : Reads knot (.word known) (.word text) := by
  intro rest
  rw [read, readActionName, write, List.append_assoc, readWord8 bound, ok_bind]
  simp only [readUtf8_toUTF8, ok_bind, listed, if_true]
  rfl

theorem readItems_writeItems {item : Shape} {items : List Datum}
    (each : ∀ value ∈ items, Reads knot item value) (rest : List UInt8) :
    readItems (read knot item) items.length (writeItems items ++ rest) = .ok (items, rest) := by
  induction items with
  | nil => rfl
  | cons first others ih =>
      have head := each first (by simp)
      have tail := ih fun value member => each value (by simp [member])
      rw [List.length_cons, readItems, writeItems, List.append_assoc, head, ok_bind]
      simp only [tail, ok_bind]
      rfl

theorem reads_list {item : Shape} {items : List Datum} (few : items.length < sizeLimit)
    (each : ∀ value ∈ items, Reads knot item value) : Reads knot (.list item) (.list items) := by
  intro rest
  simp only [read, write, List.append_assoc, readWord8 (lt_word_of_small few), ok_bind,
    readItems_writeItems each]
  rfl

theorem reads_reserved {item : Shape} {items : List Datum} {limit : Nat}
    (few : items.length < sizeLimit) (room : sizeLimit ≤ limit)
    (each : ∀ value ∈ items, Reads knot item value) :
    Reads knot (.reserved limit item) (.list items) := by
  intro rest
  have fits : ¬limit < items.length := by omega
  simp only [read, write, List.append_assoc, readWord8 (lt_word_of_small few), ok_bind,
    readItems_writeItems each, if_neg fits]
  rfl

theorem readFields_writeFields {fields : List (String × Shape)} {values : List (String × Datum)}
    (named : values.map Prod.fst = fields.map Prod.fst)
    (each : ∀ pair ∈ fields.zip values, Reads knot pair.1.2 pair.2.2) (rest : List UInt8) :
    readFields knot fields (writeFields values ++ rest) = .ok (values, rest) := by
  induction fields generalizing values with
  | nil =>
      rw [List.map_nil, List.map_eq_nil_iff] at named
      subst named
      rw [readFields]
      rfl
  | cons field fields ih =>
      cases values with
      | nil => cases named
      | cons value values =>
          simp only [List.map_cons, List.cons.injEq] at named
          have head := each (field, value) (by simp)
          have tail := ih named.2 fun pair member => each pair (by simp [member])
          have whole : (field.1, value.2) = value := by rw [← named.1]
          rw [readFields, writeFields, List.append_assoc, head, ok_bind]
          simp only [tail, ok_bind, whole]
          rfl

theorem payloadReader_eq (alternatives : Alternatives) (position : Nat) :
    payloadReader knot alternatives position =
      alternatives[position]?.map fun found => (found.1, read knot found.2) := by
  induction alternatives generalizing position with
  | nil => rw [payloadReader, List.getElem?_nil, Option.map_none]
  | cons first others ih =>
      cases position with
      | zero => rw [payloadReader, List.getElem?_cons_zero, Option.map_some]
      | succ position => rw [payloadReader, ih, List.getElem?_cons_succ]

theorem getElem?_of_alternative? {alternatives : Alternatives} {name : String}
    {position : UInt32} {payload : Shape} (few : alternatives.length ≤ UInt32.size)
    (found : alternative? alternatives name = some (position, payload)) :
    alternatives[position.toNat]? = some (name, payload) := by
  rw [alternative?] at found
  split at found
  · cases found
  · next index searched =>
      obtain ⟨bound, same, _⟩ := List.findIdx?_eq_some_iff_getElem.mp searched
      rw [List.getElem?_eq_getElem bound, Option.map_some] at found
      obtain ⟨rfl, rfl⟩ := Prod.mk.inj (Option.some.inj found)
      have fits : index < UInt32.size := Nat.lt_of_lt_of_le bound few
      rw [UInt32.toNat_ofNat_of_lt' fits, List.getElem?_eq_getElem bound]
      rw [← eq_of_beq same]

theorem getElem?_of_chooseLabel {names : List String} {name : String} {position : UInt32}
    (few : names.length ≤ UInt32.size) (found : chooseLabel names name = .ok (.label position name)) :
    names[position.toNat]? = some name := by
  rw [chooseLabel] at found
  split at found
  · next index searched =>
      obtain ⟨bound, same, _⟩ := List.findIdx?_eq_some_iff_getElem.mp searched
      obtain ⟨rfl, _⟩ := Datum.label.inj (Except.ok.inj found)
      have fits : index < UInt32.size := Nat.lt_of_lt_of_le bound few
      rw [UInt32.toNat_ofNat_of_lt' fits, List.getElem?_eq_getElem bound, eq_of_beq same]
  · cases found

theorem reads_label {names : List String} {name : String} {position : UInt32}
    (few : names.length ≤ UInt32.size) (found : chooseLabel names name = .ok (.label position name)) :
    Reads knot (.labels names) (.label position name) := by
  intro rest
  simp only [read, readLabel, write, readWord4, ok_bind, getElem?_of_chooseLabel few found,
    UInt32.ofNat_toNat]
  rfl

theorem readVariant_write {alternatives : Alternatives} {name : String} {position : UInt32}
    {payload : Shape} {value : Datum} (few : alternatives.length ≤ UInt32.size)
    (found : alternative? alternatives name = some (position, payload))
    (held : Reads knot payload value) (rest : List UInt8) :
    readVariant knot alternatives (write (.variant position name value) ++ rest) =
      .ok (.variant position name value, rest) := by
  rw [readVariant, write, List.append_assoc, readWord4, ok_bind]
  simp only [payloadReader_eq, getElem?_of_alternative? few found, Option.map_some, held rest,
    ok_bind, UInt32.ofNat_toNat]
  rfl

end Readers

/-! ### Reading back -/

/-- A reader of the alternatives that goes deep enough for values of `room` bytes. -/
def Enough (scope : Alternatives) (room : Nat) (knot : Reader Datum) : Prop :=
  scope = [] ∨ ∃ spare, knot = tie (fun knot => readVariant knot scope) (room + spare)

theorem Enough.mono {scope : Alternatives} {room less : Nat} {knot : Reader Datum}
    (enough : Enough scope room knot) (le : less ≤ room) : Enough scope less knot := by
  rcases enough with none | ⟨spare, rfl⟩
  · exact .inl none
  · exact .inr ⟨room - less + spare, by rw [← Nat.add_assoc, Nat.add_sub_cancel' le]⟩

theorem tie_write {alternatives : Alternatives} {name : String} {position : UInt32}
    {payload : Shape} {value : Datum} (few : alternatives.length ≤ UInt32.size)
    (found : alternative? alternatives name = some (position, payload))
    (held : ∀ knot, Enough alternatives (write value).length knot → Reads knot payload value)
    {fuel : Nat} (deep : (write value).length < fuel) (rest : List UInt8) :
    tie (fun knot => readVariant knot alternatives) fuel
      (write (.variant position name value) ++ rest) = .ok (.variant position name value, rest) := by
  cases fuel with
  | zero => omega
  | succ fuel =>
      have enough : Enough alternatives (write value).length
          (tie (fun knot => readVariant knot alternatives) fuel) :=
        .inr ⟨fuel - (write value).length, by rw [Nat.add_sub_cancel' (by omega)]⟩
      rw [tie]
      exact readVariant_write few found (held _ enough) rest

theorem packs_of_alternative? {alternatives : Alternatives} {name : String} {position : UInt32}
    {payload : Shape} (packed : (Shape.variants alternatives).packs = true)
    (found : alternative? alternatives name = some (position, payload)) :
    alternatives.length ≤ UInt32.size ∧ payload.packs = true := by
  simp only [Shape.packs, Bool.and_eq_true, decide_eq_true_eq] at packed
  have member := List.mem_of_getElem? (getElem?_of_alternative? packed.1 found)
  exact ⟨packed.1, Shape.packs_of_mem packed.2 member⟩

theorem read_write {scope : Alternatives} {shape : Shape} {datum : Datum}
    (conforms : Conforms scope shape datum) (small : (write datum).length < sizeLimit)
    (packed : shape.packs = true) (nested : (Shape.variants scope).packs = true)
    {knot : Reader Datum} (enough : Enough scope (write datum).length knot) :
    Reads knot shape datum := by
  -- `recur` is read by a knot one turn shorter, and has taken four bytes by then
  induction conforms generalizing knot with
  | unit => intro rest; simp only [read, write, List.nil_append]
  | @bool _ value =>
      intro rest
      cases value <;>
        simp only [read, write, readBool, List.cons_append, readByte, ok_bind, if_true, if_false,
          Bool.false_eq_true] <;>
        rfl
  | byte => intro rest; simp only [read, write, List.cons_append, readByte, ok_bind]; rfl
  | count =>
      intro rest
      simp only [read, write, readWord4, ok_bind, UInt32.ofNat_toNat]
      rfl
  | @index _ value =>
      intro rest
      simp only [read, write, readWord8 value.toNat_lt, ok_bind, UInt64.ofNat_toNat]
      rfl
  | @signed _ value =>
      intro rest
      simp only [read, write, readWord8 value.toUInt64.toNat_lt, ok_bind, UInt64.ofNat_toNat]
      rfl
  | @word _ _ text listed =>
      simp only [write, List.length_append, Array.length_toList] at small
      have size : text.toUTF8.size < sizeLimit := Nat.lt_of_le_of_lt (Nat.le_add_left _ _) small
      exact reads_word listed (lt_word_of_small size)
  | absent => intro rest; simp only [read, write, List.cons_append, readByte, ok_bind]; rfl
  | present shown held ih =>
      intro rest
      simp only [write, List.length_cons] at small enough
      have inner := ih (by omega) packed nested (enough.mono (by omega)) rest
      simp only [read, write, List.cons_append, readByte, ok_bind, inner]
      rfl
  | list each ih =>
      rw [Shape.packs, Bool.and_eq_true] at packed
      simp only [write, List.length_append] at small enough
      have count := length_le_writeItems fun value member => write_pos (each value member) packed.1
      refine reads_list (by omega) ?_
      intro value member
      have within := length_write_le_of_mem member
      exact ih value member (by omega) packed.2 nested (enough.mono (by omega))
  | reserved each ih =>
      simp only [Shape.packs, Bool.and_eq_true, decide_eq_true_eq] at packed
      obtain ⟨⟨room, occupies⟩, packed⟩ := packed
      simp only [write, List.length_append] at small enough
      have count := length_le_writeItems fun value member => write_pos (each value member) occupies
      refine reads_reserved (by omega) room ?_
      intro value member
      have within := length_write_le_of_mem member
      exact ih value member (by omega) packed nested (enough.mono (by omega))
  | record named distinct each ih =>
      rw [Shape.packs] at packed
      simp only [write] at small enough
      intro rest
      simp only [read, write]
      rw [readFields_writeFields named]
      · rfl
      · intro pair member
        have within := length_write_le_of_field (List.of_mem_zip member).2
        have inner := Shape.packs_of_mem packed (List.of_mem_zip member).1
        exact ih pair member (by omega) inner nested (enough.mono (by omega))
  | variants found held ih =>
      obtain ⟨few, inner⟩ := packs_of_alternative? packed found
      simp only [write, List.length_append] at small enough
      intro rest
      rw [read]
      exact readVariant_write few found (ih (by omega) inner nested (enough.mono (by omega))) rest
  | labels found =>
      rw [Shape.packs, decide_eq_true_eq] at packed
      exact reads_label packed found
  | recursive found held ih =>
      have within : (Shape.variants _).packs = true := packed
      obtain ⟨few, inner⟩ := packs_of_alternative? within found
      simp only [write, List.length_append] at small
      intro rest
      rw [read]
      refine tie_write few found (fun knot enough => ih (by omega) inner within enough) ?_ rest
      simp only [write, List.length_append, length_littleEndian]
      omega
  | recur found held ih =>
      obtain ⟨few, inner⟩ := packs_of_alternative? nested found
      simp only [write, List.length_append, length_littleEndian] at small enough
      intro rest
      rcases enough with none | ⟨spare, rfl⟩
      · subst none
        cases found
      · rw [read]
        exact tie_write few found (fun knot enough => ih (by omega) inner nested enough) (by omega)
          rest

/-! ### Snapshots of values -/

variable {α : Type} [Storable α] [LawfulStorable α]

theorem read_encode (packed : (Storable.shape α).packs = true) {value : α} {snapshot : Snapshot}
    (encoded : encode value = .ok snapshot) (knot : Reader Datum) (rest : List UInt8) :
    read knot (Storable.shape α) (snapshot.bytes ++ rest) = .ok (Storable.toDatum value, rest) := by
  simp only [encode, ofDatum] at encoded
  split at encoded
  · next small =>
      cases encoded
      exact read_write (LawfulStorable.conforms [] value) small packed rfl (.inl rfl) rest
  · cases encoded

theorem decode_append (packed : (Storable.shape α).packs = true) {value : α} {snapshot : Snapshot}
    (encoded : encode value = .ok snapshot) (rest : List UInt8) :
    decode ⟨snapshot.bytes ++ rest⟩ = .ok value := by
  simp only [decode, toDatum, read_encode packed encoded _ rest, ok_bind, pure, Except.pure,
    LawfulStorable.rebuilds]

theorem decode_encode (packed : (Storable.shape α).packs = true) {value : α} {snapshot : Snapshot}
    (encoded : encode value = .ok snapshot) : snapshot.decode = .ok value := by
  simpa using decode_append packed encoded []

end Snapshot

end TurnObligations
