import TurnObligations.Proofs.Storage.Written

/-!
Data that conform to a shape read back from the JSON text they are written as, provided that the text
does not open more brackets at once than the reader allows.
-/

namespace TurnObligations.Storage

open Json (Ends Reader skipBlanks skipBlanks_cons)

/-! ### Lists -/

theorem ends_renderItems (items : List Json) (rest : List Char) :
    Ends (Json.renderItems items ++ rest) := by
  cases items <;> simp [Ends, Json.renderItems]

theorem ends_renderEntries (entries : List (String × Json)) (rest : List Char) :
    Ends (Json.renderEntries entries ++ rest) := by
  cases entries <;> simp [Ends, Json.renderEntries]

/-- A reader gets a datum back from its written form, whatever follows. -/
def ReadsBack (read : Reader Datum) (datum : Datum) : Prop :=
  ∀ rest, Ends rest → read (datum.toJson.render ++ rest) = .ok (datum, rest)

section Items

variable {α : Type} {read : Reader α} {fuel : Nat} {c : Char} {more : List Char}

theorem readItems_first (opens : Opens c) :
    Json.readItems read (fuel + 1) true (c :: more) = (do
      let (head, rest) ← read (c :: more)
      let (tail, rest) ← Json.readItems read fuel false rest
      return (head :: tail, rest)) := by
  rw [Json.readItems, skipBlanks_cons opens.solid]
  split
  · next impossible => cases impossible
  · next same =>
      cases same
      exact absurd rfl opens.notClosing
  · next same =>
      cases same
      rfl

theorem readItems_comma (opens : Opens c) :
    Json.readItems read (fuel + 1) false (',' :: c :: more) = (do
      let (head, rest) ← read (c :: more)
      let (tail, rest) ← Json.readItems read fuel false rest
      return (head :: tail, rest)) := by
  rw [Json.readItems, skipBlanks_cons rfl]
  split
  · next impossible => cases impossible
  · next impossible => cases impossible
  · next same =>
      cases same
      simp only [skipBlanks_cons opens.solid, Bool.false_eq_true, if_false, if_true]
      split
      · next impossible => cases impossible
      · next same =>
          cases same
          exact absurd rfl opens.notClosing
      · rfl

end Items

theorem readItems_more {read : Reader Datum} {items : List Datum}
    (each : ∀ value ∈ items, ReadsBack read value) (rest : List Char) (fuel : Nat)
    (enough : items.length < fuel) :
    Json.readItems read fuel false (Json.renderItems (Datum.toJsonItems items) ++ rest) =
      .ok (items, rest) := by
  induction items generalizing fuel with
  | nil =>
      obtain ⟨fuel, rfl⟩ := Nat.exists_eq_add_of_lt enough
      rfl
  | cons value items ih =>
      cases fuel with
      | zero => simp at enough
      | succ fuel =>
          have later : ∀ other ∈ items, ReadsBack read other :=
            fun other member => each other (by simp [member])
          have tail := ih later fuel (by simpa using enough)
          have head := each value (by simp) (Json.renderItems (Datum.toJsonItems items) ++ rest)
            (ends_renderItems _ _)
          obtain ⟨c, more, written, opens, _⟩ := render_opens value
          simp only [Datum.toJsonItems, Json.renderItems, List.append_assoc, List.cons_append]
          rw [written, List.cons_append] at head ⊢
          rw [readItems_comma opens, head, ok_bind]
          simp only [tail, ok_bind]
          rfl

theorem readItems_all {read : Reader Datum} {items : List Datum}
    (each : ∀ value ∈ items, ReadsBack read value) (rest : List Char) (fuel : Nat)
    (enough : items.length < fuel) {after : List Char}
    (written : (Datum.list items).toJson.render ++ rest = '[' :: after) :
    Json.readItems read fuel true after = .ok (items, rest) := by
  cases fuel with
  | zero => simp at enough
  | succ fuel =>
      cases items with
      | nil =>
          cases written
          rfl
      | cons value items =>
          have later : ∀ other ∈ items, ReadsBack read other :=
            fun other member => each other (by simp [member])
          have tail := readItems_more later rest fuel (by simpa using enough)
          have head := each value (by simp) (Json.renderItems (Datum.toJsonItems items) ++ rest)
            (ends_renderItems _ _)
          obtain ⟨c, more, shown, opens, _⟩ := render_opens value
          simp only [Datum.toJson, Datum.toJsonItems, Json.render, List.cons_append,
            List.append_assoc, List.cons.injEq, true_and] at written
          subst written
          rw [shown, List.cons_append] at head ⊢
          rw [readItems_first opens, head, ok_bind]
          simp only [tail, ok_bind]
          rfl

theorem length_le_renderItems (items : List Json) :
    items.length < (Json.renderItems items).length := by
  induction items with
  | nil => exact Nat.zero_lt_one
  | cons item rest ih =>
      simp only [List.length_cons, Json.renderItems, List.length_append]
      omega

/-! ### Records -/

section Entries

variable {read : Shape → Reader Datum} {fields : List (String × Shape)}

theorem readField_eq_ok {slots : Slots} {value : String × Datum} {shape : Shape}
    (known : fields.lookup value.1 = some shape) (fresh : slots.lookup value.1 = none)
    (back : ReadsBack (read shape) value.2) {rest : List Char} (ends : Ends rest) :
    readField read fields slots value.1 (':' :: (value.2.toJson.render ++ rest)) =
      .ok (value :: slots, rest) := by
  have colon : Json.expectColon (':' :: (value.2.toJson.render ++ rest)) =
      .ok (value.2.toJson.render ++ rest) := rfl
  simp only [readField, known, fresh, Option.isSome_none, Bool.false_eq_true, if_false, colon,
    ok_bind, back rest ends]
  rfl

structure EntriesReadBack (read : Shape → Reader Datum) (fields : List (String × Shape))
    (values : List (String × Datum)) : Prop where
  distinct : (values.map Prod.fst).Nodup
  each : ∀ value ∈ values, ∃ shape, fields.lookup value.1 = some shape ∧
    ReadsBack (read shape) value.2

theorem EntriesReadBack.tail {value : String × Datum} {values : List (String × Datum)}
    (back : EntriesReadBack read fields (value :: values)) : EntriesReadBack read fields values :=
  ⟨(List.nodup_cons.mp back.distinct).2, fun other member => back.each other (by simp [member])⟩

theorem EntriesReadBack.head {value : String × Datum} {values : List (String × Datum)}
    {slots : Slots} (back : EntriesReadBack read fields (value :: values))
    (fresh : slots.lookup value.1 = none) (rest : List Char) :
    readField read fields slots value.1 (':' :: (value.2.toJson.render ++
      (Json.renderEntries (Datum.toJsonFields values) ++ rest))) =
      .ok (value :: slots, Json.renderEntries (Datum.toJsonFields values) ++ rest) := by
  obtain ⟨shape, known, reads⟩ := back.each value (by simp)
  exact readField_eq_ok known fresh reads (ends_renderEntries _ _)

theorem EntriesReadBack.apart {value : String × Datum} {values : List (String × Datum)}
    {slots : Slots} (back : EntriesReadBack read fields (value :: values))
    (fresh : ∀ other ∈ value :: values, slots.lookup other.1 = none) :
    ∀ other ∈ values, List.lookup other.1 (value :: slots) = none := by
  intro other member
  have different : other.1 ≠ value.1 := by
    intro same
    exact (List.nodup_cons.mp back.distinct).1 (List.mem_map.mpr ⟨other, member, same⟩)
  rw [List.lookup_cons, beq_eq_false_iff_ne.mpr different]
  exact fresh other (by simp [member])

section Walk

variable {σ : Type} {entry : σ → String → List Char → Except ReadError (σ × List Char)}
  {fuel : Nat} {state : σ} {more : List Char}

theorem readEntries_first :
    Json.readEntries entry (fuel + 1) true state ('"' :: more) = (do
      let (key, rest) ← Json.readString more
      let (state, rest) ← entry state key rest
      Json.readEntries entry fuel false state rest) := rfl

theorem readEntries_comma :
    Json.readEntries entry (fuel + 1) false state (',' :: '"' :: more) = (do
      let (key, rest) ← Json.readString more
      let (state, rest) ← entry state key rest
      Json.readEntries entry fuel false state rest) := rfl

end Walk

theorem readEntries_more {values : List (String × Datum)}
    (back : EntriesReadBack read fields values) {slots : Slots}
    (fresh : ∀ value ∈ values, slots.lookup value.1 = none) (rest : List Char) (fuel : Nat)
    (enough : values.length < fuel) :
    Json.readEntries (readField read fields) fuel false slots
      (Json.renderEntries (Datum.toJsonFields values) ++ rest) =
      .ok (values.reverse ++ slots, rest) := by
  induction values generalizing slots fuel with
  | nil =>
      obtain ⟨fuel, rfl⟩ := Nat.exists_eq_add_of_lt enough
      rfl
  | cons value values ih =>
      cases fuel with
      | zero => simp at enough
      | succ fuel =>
          have tail := ih back.tail (back.apart fresh) fuel (by simpa using enough)
          have head := back.head (fresh value (by simp)) rest
          simp only [Datum.toJsonFields, Json.renderEntries, Json.quote, List.cons_append,
            List.append_assoc, List.nil_append]
          rw [readEntries_comma, Json.readString_quoted, ok_bind]
          simp only [head, ok_bind, tail, List.reverse_cons, List.append_assoc, List.cons_append,
            List.nil_append]

theorem readEntries_all {values : List (String × Datum)}
    (back : EntriesReadBack read fields values) (rest : List Char) (fuel : Nat)
    (enough : values.length < fuel) {after : List Char}
    (written : (Datum.record values).toJson.render ++ rest = '\x7b' :: after) :
    Json.readEntries (readField read fields) fuel true [] after = .ok (values.reverse, rest) := by
  cases fuel with
  | zero => simp at enough
  | succ fuel =>
      cases values with
      | nil =>
          cases written
          rfl
      | cons value values =>
          have fresh : ∀ other ∈ value :: values, List.lookup other.1 ([] : Slots) = none :=
            fun _ _ => rfl
          have tail := readEntries_more back.tail (back.apart fresh) rest fuel
            (by simpa using enough)
          have head := back.head (fresh value (by simp)) rest
          simp only [Datum.toJson, Datum.toJsonFields, Json.render, Json.quote, List.cons_append,
            List.append_assoc, List.nil_append, List.cons.injEq, true_and] at written
          subst written
          rw [readEntries_first, Json.readString_quoted, ok_bind]
          simp only [head, ok_bind, tail, List.reverse_cons]

end Entries

theorem length_le_renderEntries (entries : List (String × Json)) :
    entries.length < (Json.renderEntries entries).length := by
  induction entries with
  | nil => exact Nat.zero_lt_one
  | cons entry rest ih =>
      simp only [List.length_cons, Json.renderEntries, List.length_append]
      omega

/-! ### Brackets -/

theorem render_list (items : List Datum) (rest : List Char) :
    ∃ after, (Datum.list items).toJson.render ++ rest = '[' :: after ∧
      items.length < after.length + 1 := by
  cases items with
  | nil => exact ⟨_, rfl, by simp⟩
  | cons value items =>
      have long := length_le_renderItems (Datum.toJsonItems items)
      refine ⟨_, rfl, ?_⟩
      rw [Datum.toJsonItems_eq, List.length_map] at long
      simp only [Datum.toJsonItems_eq, List.length_cons, List.append_eq, List.length_append]
      omega

theorem render_record (values : List (String × Datum)) (rest : List Char) :
    ∃ after, (Datum.record values).toJson.render ++ rest = '\x7b' :: after ∧
      values.length < after.length + 1 := by
  cases values with
  | nil => exact ⟨_, rfl, by simp⟩
  | cons value values =>
      have long := length_le_renderEntries (Datum.toJsonFields values)
      refine ⟨_, rfl, ?_⟩
      rw [Datum.toJsonFields_eq, List.length_map] at long
      simp only [Datum.toJsonFields_eq, List.length_cons, List.append_eq, List.length_append]
      omega

variable {inner : Alternatives → Shape → Reader Datum} {scope : Alternatives}

theorem readWith_list (item : Shape) (after : List Char) :
    readWith (some inner) scope (.list item) ('[' :: after) = (do
      let (items, rest) ← Json.readItems (inner scope item) (after.length + 1) true after
      return (.list items, rest)) :=
  rfl

theorem list_readsBack {item : Shape} {items : List Datum}
    (each : ∀ value ∈ items, ReadsBack (inner scope item) value) :
    ReadsBack (readWith (some inner) scope (.list item)) (.list items) := by
  intro rest _
  obtain ⟨after, written, enough⟩ := render_list items rest
  have read := readItems_all each rest (after.length + 1) enough written
  rw [written, readWith_list, read]
  rfl

theorem readWith_record (name : String) (fields : List (String × Shape)) (after : List Char) :
    readWith (some inner) scope (.record name fields) ('\x7b' :: after) = (do
      let (slots, rest) ←
        Json.readEntries (readField (inner scope) fields) (after.length + 1) true [] after
      return (.record (← assemble slots fields), rest)) :=
  rfl

theorem record_readsBack {name : String} {fields : List (String × Shape)}
    {values : List (String × Datum)} (named : values.map Prod.fst = fields.map Prod.fst)
    (distinct : (fields.map Prod.fst).Nodup)
    (each : ∀ pair ∈ fields.zip values, ReadsBack (inner scope pair.1.2) pair.2.2) :
    ReadsBack (readWith (some inner) scope (.record name fields)) (.record values) := by
  intro rest _
  have distinctValues : (values.map Prod.fst).Nodup := named ▸ distinct
  have back : EntriesReadBack (inner scope) fields values := by
    refine ⟨distinctValues, ?_⟩
    intro value member
    obtain ⟨field, beside, known, same⟩ := exists_field named member
    refine ⟨field.2, ?_, each _ beside⟩
    rw [← same]
    exact lookup_of_distinct distinct known
  have assembled : assemble values.reverse fields = .ok values := by
    refine assemble_eq_ok named (lookup_of_subset distinctValues ?_ ?_)
    · intro slot member
      exact List.mem_reverse.mp member
    · intro key member
      rw [List.map_reverse, List.mem_reverse]
      exact member
  obtain ⟨after, written, enough⟩ := render_record values rest
  have read := readEntries_all back rest (after.length + 1) enough written
  rw [written, readWith_record, read, ok_bind]
  simp only [assembled, ok_bind]
  rfl

theorem readVariant_named (inner : Shape → Reader Datum) (alternatives : Alternatives)
    (after : List Char) :
    readVariant (some inner) alternatives ('\x7b' :: '"' :: after) = (do
      let (name, rest) ← Json.readString after
      let (position, payload) ← chooseVariant alternatives name
      let (value, rest) ← inner payload (← Json.expectColon rest)
      return (.variant position name value, ← closeObject rest)) :=
  rfl

theorem variant_readsBack {inner : Shape → Reader Datum} {alternatives : Alternatives}
    {position : UInt32} {name : String} {payload : Shape} {value : Datum}
    (found : alternative? alternatives name = some (position, payload))
    (back : ReadsBack (inner payload) value) :
    ReadsBack (readVariant (some inner) alternatives) (.variant position name value) := by
  intro rest _
  have closing : Ends ('\x7d' :: rest) := by simp [Ends]
  have read := back ('\x7d' :: rest) closing
  have written : (Datum.variant position name value).toJson.render ++ rest =
      '\x7b' :: '"' :: (name.toList.flatMap Json.escape ++ '"' :: ':' ::
        (value.toJson.render ++ '\x7d' :: rest)) := by
    simp [Datum.toJson, Json.render, Json.renderEntries, Json.quote]
  have colon : Json.expectColon (':' :: (value.toJson.render ++ '\x7d' :: rest)) =
      .ok (value.toJson.render ++ '\x7d' :: rest) := rfl
  rw [written, readVariant_named, Json.readString_quoted, ok_bind]
  simp only [chooseVariant_eq_ok found, colon, ok_bind, read]
  rfl

theorem option_readsBack {inner : Option (Alternatives → Shape → Reader Datum)} {item : Shape}
    {value : Datum} (shown : value.toJson ≠ .null) (back : ReadsBack (readWith inner scope item) value) :
    ReadsBack (readWith inner scope (.option item)) (.present value) := by
  intro rest ends
  have read := back rest ends
  obtain ⟨c, more, written, opens, onlyNull⟩ := render_opens value
  rw [written, List.cons_append] at read
  rw [Datum.toJson, written, List.cons_append, readWith]
  simp only [skipBlanks_cons opens.solid]
  split
  · next same =>
      cases same
      exact absurd (onlyNull rfl) shown
  · simp only [read, ok_bind]
    rfl

theorem readWith_word (inner : Option (Alternatives → Shape → Reader Datum))
    (known : String → Bool) (input : List Char) :
    readWith inner scope (.word known) input = (do
      let (text, rest) ← readText input
      return (← ofWord known text, rest)) :=
  rfl

theorem word_readsBack {inner : Option (Alternatives → Shape → Reader Datum)}
    {known : String → Bool} {text : String} (listed : known text = true) :
    ReadsBack (readWith inner scope (.word known)) (.word text) := by
  intro rest _
  rw [readWith_word, Datum.toJson, Json.render, readText_quote, ok_bind]
  simp only [ofWord, listed, if_true, ok_bind]
  rfl

theorem readWith_labels (inner : Option (Alternatives → Shape → Reader Datum))
    (names : List String) (after : List Char) :
    readWith inner scope (.labels names) ('"' :: after) = (do
      let (name, rest) ← Json.readString after
      return (← chooseLabel names name, rest)) :=
  rfl

theorem label_readsBack {inner : Option (Alternatives → Shape → Reader Datum)}
    {names : List String} {position : UInt32} {name : String}
    (found : chooseLabel names name = .ok (.label position name)) :
    ReadsBack (readWith inner scope (.labels names)) (.label position name) := by
  intro rest _
  rw [Datum.toJson, Json.render, Json.quote_append, readWith_labels, Json.readString_quoted,
    ok_bind]
  simp only [found, ok_bind]
  rfl

/-! ### The whole text -/

theorem readNested_of_readWith {shape : Shape} {datum : Datum}
    (back : ∀ inner, ReadsBack (readWith inner scope shape) datum) (depth : Nat) :
    ReadsBack (readNested depth scope shape) datum := by
  cases depth with
  | zero => exact back none
  | succ depth => exact back (some (readNested depth))

theorem depth_inside_list {items : List Datum} {depth : Nat}
    (shallow : (Datum.list items).toJson.depth ≤ depth) :
    ∃ inside, depth = inside + 1 ∧ ∀ value ∈ items, value.toJson.depth ≤ inside := by
  have opened : Json.depthItems (Datum.toJsonItems items) + 1 ≤ depth := shallow
  refine ⟨depth - 1, by omega, ?_⟩
  intro value member
  have listed : value.toJson ∈ Datum.toJsonItems items := by
    rw [Datum.toJsonItems_eq]
    exact List.mem_map.mpr ⟨value, member, rfl⟩
  have held := Json.depth_le_depthItems listed
  omega

theorem depth_inside_record {values : List (String × Datum)} {depth : Nat}
    (shallow : (Datum.record values).toJson.depth ≤ depth) :
    ∃ inside, depth = inside + 1 ∧ ∀ value ∈ values, value.2.toJson.depth ≤ inside := by
  have opened : Json.depthEntries (Datum.toJsonFields values) + 1 ≤ depth := shallow
  refine ⟨depth - 1, by omega, ?_⟩
  intro value member
  have listed : (value.1, value.2.toJson) ∈ Datum.toJsonFields values := by
    rw [Datum.toJsonFields_eq]
    exact List.mem_map.mpr ⟨value, member, rfl⟩
  have held : value.2.toJson.depth ≤ _ := Json.depth_le_depthEntries listed
  omega

theorem depth_inside_variant {position : UInt32} {name : String} {value : Datum} {depth : Nat}
    (shallow : (Datum.variant position name value).toJson.depth ≤ depth) :
    ∃ inside, depth = inside + 1 ∧ value.toJson.depth ≤ inside := by
  have opened : Json.depthEntries [(name, value.toJson)] + 1 ≤ depth := shallow
  have held : value.toJson.depth ≤ Json.depthEntries [(name, value.toJson)] :=
    Nat.le_max_left ..
  exact ⟨depth - 1, by omega, by omega⟩

theorem readNested_of_conforms {shape : Shape} {datum : Datum}
    (conforms : Conforms scope shape datum) (depth : Nat) (shallow : datum.toJson.depth ≤ depth) :
    ReadsBack (readNested depth scope shape) datum := by
  induction conforms generalizing depth with
  | unit => exact readNested_of_readWith (fun _ _ _ => rfl) depth
  | @bool _ value =>
      refine readNested_of_readWith (fun inner => ?_) depth
      cases value with
      | true => exact fun _ _ => rfl
      | false => exact fun _ _ => rfl
  | @byte _ value =>
      have fits := Nat.lt_trans value.toNat_lt (by decide : UInt8.size < UInt64.size)
      exact readNested_of_readWith
        (fun _ _ => readNumber_decimal fits (ofInteger_byte value)) depth
  | @count _ value =>
      have fits := Nat.lt_trans value.toNat_lt (by decide : UInt32.size < UInt64.size)
      exact readNested_of_readWith
        (fun _ _ => readNumber_decimal fits (ofInteger_count value)) depth
  | @index _ value =>
      exact readNested_of_readWith
        (fun _ _ => readNumber_decimal value.toNat_lt (ofInteger_index value)) depth
  | @signed _ value => exact readNested_of_readWith (fun _ _ => readNumber_signed value) depth
  | word listed => exact readNested_of_readWith (fun _ => word_readsBack listed) depth
  | absent => exact readNested_of_readWith (fun _ _ _ => rfl) depth
  | present shown _ ih =>
      have back := ih depth shallow
      cases depth with
      | zero => exact option_readsBack shown back
      | succ depth => exact option_readsBack shown back
  | list _ ih =>
      obtain ⟨inside, rfl, below⟩ := depth_inside_list shallow
      exact list_readsBack fun value member => ih value member inside (below value member)
  | reserved _ ih =>
      obtain ⟨inside, rfl, below⟩ := depth_inside_list shallow
      exact list_readsBack fun value member => ih value member inside (below value member)
  | record named distinct _ ih =>
      obtain ⟨inside, rfl, below⟩ := depth_inside_record shallow
      refine record_readsBack named distinct fun pair member => ih pair member inside ?_
      exact below pair.2 (List.of_mem_zip member).2
  | variants found _ ih =>
      obtain ⟨inside, rfl, below⟩ := depth_inside_variant shallow
      exact variant_readsBack found (ih inside below)
  | labels found => exact readNested_of_readWith (fun _ => label_readsBack found) depth
  | recursive found _ ih =>
      obtain ⟨inside, rfl, below⟩ := depth_inside_variant shallow
      exact variant_readsBack found (ih inside below)
  | recur found _ ih =>
      obtain ⟨inside, rfl, below⟩ := depth_inside_variant shallow
      exact variant_readsBack found (ih inside below)

theorem readDatum_of_conforms {shape : Shape} {datum : Datum} (conforms : Conforms [] shape datum)
    (shallow : datum.toJson.depth ≤ Json.maxDepth) :
    readDatum shape datum.toJson.toText = .ok datum := by
  have read := readNested_of_conforms conforms Json.maxDepth shallow [] (by simp [Ends])
  rw [List.append_nil] at read
  rw [readDatum, Json.toText, String.toList_ofList, read]
  rfl

end TurnObligations.Storage
