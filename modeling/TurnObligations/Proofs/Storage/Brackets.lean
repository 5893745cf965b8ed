import TurnObligations.Proofs.Json.Skip
import TurnObligations.Proofs.Storage.Agreement
import TurnObligations.Proofs.Storage.Order

/-!
Lists, records and variants are accepted alike from text and from JSON values if what stands inside
their brackets is.
-/

namespace TurnObligations.Storage

open Json (Reader Begins Elements Members Skips)

/-- A reader of values and a reader of shapes stop at the same place, and what they have read can be
passed over as well. -/
structure Alike (item : Reader Json) (read : Alternatives → Shape → Reader Datum) : Prop where
  skips {input rest : List Char} {json : Json} (parsed : item input = .ok (json, rest)) :
    Skips input rest
  agrees {input rest : List Char} {json : Json} (parsed : item input = .ok (json, rest))
    (distinct : json.keysDistinct = true) (scope : Alternatives) (shape : Shape) :
    Agree (read scope shape input) (valueReader json scope shape) rest

section Bracketed

variable {item : Reader Json} {read : Alternatives → Shape → Reader Datum} {fuel : Nat}
  {first : Bool} {input rest : List Char} {scope : Alternatives} {name : String}

theorem items_agree {values : List Json} {shape : Shape} (alike : Alike item read)
    (elements : Elements item fuel first input values rest)
    (distinct : Json.keysDistinctItems values = true) :
    Agree (Json.readItems (read scope shape) fuel first input)
      ((itemReaders values).mapM fun reader => reader scope shape) rest := by
  induction elements with
  | closed here => exact .accepted [] (Json.readItems_closed here) rfl
  | item begins here _ ih =>
      obtain ⟨head, tail⟩ := Bool.and_eq_true_iff.mp distinct
      rw [Json.readItems_begins begins, itemReaders, List.mapM_cons]
      exact (alike.agrees here head scope shape).bind fun value =>
        (ih tail).bind fun values => .accepted (value :: values) rfl rfl

theorem readFieldItems_begins {start : List Char} {inner : Shape → Reader Datum} {position : Nat}
    {fields more : List (String × Shape)} {field : String} {shape : Shape}
    (begins : Begins ']' (position = 0) input start) :
    readFieldItems inner name fields position ((field, shape) :: more) input = (do
      let (value, rest) ← inner shape start
      let (values, rest) ← readFieldItems inner name fields (position + 1) more rest
      return ((field, value) :: values, rest)) := by
  generalize fresh : decide (position = 0) = first at begins
  cases begins with
  | first here inside =>
      rw [readFieldItems, here]
      split
      · next none => cases none
      · next same => exact absurd (List.cons.inj same).1 inside
      · next same =>
          cases same
          rw [if_pos (of_decide_eq_true fresh)]
          rfl
  | later comma here inside =>
      rw [readFieldItems, comma]
      split
      · next none => cases none
      · next same => cases same
      · next same =>
          cases same
          dsimp only
          rw [if_neg (of_decide_eq_false fresh), if_pos rfl, here]
          split
          · next none => cases none
          · next same => exact absurd (List.cons.inj same).1 inside
          · rfl

theorem closeArray_begins {start : List Char} (begins : Begins ']' first input start) :
    closeArray input = .error .malformed := by
  obtain ⟨c, more, here, inside⟩ := begins.unclosed (by decide)
  rw [closeArray, here]
  split
  · next none => cases none
  · next same => exact absurd (List.cons.inj same).1 inside
  · rfl

theorem fieldItems_agree {values : List Json} {fields more : List (String × Shape)} {position : Nat}
    (alike : Alike item read) (elements : Elements item fuel first input values rest)
    (distinct : Json.keysDistinctItems values = true) (fresh : first = decide (position = 0)) :
    Agree (readFieldItems (read scope) name fields position more input)
      (ofFieldItems scope name fields position more (itemReaders values)) rest := by
  induction elements generalizing position more with
  | @closed _ _ input rest here =>
      cases more with
      | nil =>
          have closed : closeArray input = .ok rest := by
            rw [closeArray, here]
            rfl
          exact .accepted [] (by rw [readFieldItems, closed]; rfl) rfl
      | cons field more =>
          have short : readFieldItems (read scope) name fields position (field :: more) input =
              mismatch (.shortArray position name fields.length) := by
            rw [readFieldItems, here]
            rfl
          exact .rejected short rfl
  | item begins here _ ih =>
      obtain ⟨head, tail⟩ := Bool.and_eq_true_iff.mp distinct
      cases more with
      | nil =>
          exact .rejected (by rw [readFieldItems, closeArray_begins begins]; rfl) rfl
      | cons field more =>
          subst fresh
          rw [readFieldItems_begins begins]
          exact (alike.agrees here head scope field.2).bind fun value =>
            (ih tail rfl).bind fun values => .accepted ((field.1, value) :: values) rfl rfl

theorem fields_agree {entries : List (String × Json)} (scope : Alternatives)
    (fields : List (String × Shape)) (slots : Slots) (alike : Alike item read)
    (members : Members item fuel first input entries rest) (distinct : (entries.map Prod.fst).Nodup)
    (each : Json.keysDistinctEntries entries = true)
    (fresh : ∀ entry ∈ entries, slots.lookup entry.1 = none) :
    Agree (Json.readEntries (readField (read scope) fields) fuel first slots input)
      (do return (← ofFields scope fields (entryReaders entries)).reverse ++ slots) rest := by
  induction members generalizing slots with
  | closed here => exact .accepted slots (Json.readEntries_closed here) rfl
  | @entry _ _ _ _ _ _ _ _ key value entries begins name colon here _ ih =>
      obtain ⟨other, distinct⟩ := List.nodup_cons.mp distinct
      obtain ⟨head, tail⟩ := Bool.and_eq_true_iff.mp each
      have later := fun entry member => fresh entry (List.mem_cons_of_mem _ member)
      rw [Json.readEntries_begins begins]
      simp only [name, ok_bind, readField, colon, entryReaders, ofFields]
      cases fields.lookup key with
      | none =>
          simp only [(alike.skips here).skipValue, ok_bind]
          exact ih slots distinct tail later
      | some shape =>
          simp only [fresh (key, value) (by simp), Option.isSome_none, Bool.false_eq_true, if_false,
            bind_assoc]
          refine (alike.agrees here head scope shape).bind fun datum => ?_
          have unread : ∀ entry ∈ entries, List.lookup entry.1 ((key, datum) :: slots) = none := by
            intro entry member
            have apart : entry.1 ≠ key := by
              rintro rfl
              exact other (List.mem_map.mpr ⟨entry, member, rfl⟩)
            rw [List.lookup_cons, beq_eq_false_iff_ne.mpr apart]
            exact later entry member
          simpa using ih _ distinct tail unread

theorem record_agrees {entries : List (String × Json)} {fields : List (String × Shape)}
    (alike : Alike item read) (members : Members item fuel true input entries rest)
    (distinct : Json.keysDistinct (.object entries) = true) :
    Agree (do
        let (slots, rest) ← Json.readEntries (readField (read scope) fields) fuel true [] input
        return (Datum.record (← assemble slots fields), rest))
      (valueReader (.object entries) scope (.record name fields)) rest := by
  obtain ⟨keys, each⟩ := Bool.and_eq_true_iff.mp distinct
  have keys := of_decide_eq_true keys
  have readerKeys := entryReaders_keys entries
  have walked := fields_agree scope fields [] alike members keys each fun _ _ => rfl
  rw [valueReader, ofEntries]
  cases ofFields_perm scope fields (sortEntries_perm (readerKeys ▸ keys)) with
  | rejected failed failed' =>
      rw [failed'] at walked
      cases walked with
      | accepted _ _ gave => cases gave
      | rejected read =>
          rw [read, failed]
          exact .rejected rfl rfl
  | accepted slots slots' took took' perm =>
      rw [took'] at walked
      cases walked with
      | rejected _ gave => cases gave
      | accepted found read gave =>
          cases gave
          have unlike : (slots'.map Prod.fst).Nodup :=
            (ofFields_keys took').nodup (readerKeys ▸ keys)
          have turned := slots'.reverse_perm.trans perm.symm
          have same : assemble slots'.reverse fields = assemble slots fields :=
            assemble_perm ((slots'.reverse_perm.map Prod.fst).nodup_iff.mpr unlike) turned fields
          rw [read, took, ok_bind, ok_bind, List.append_nil, ← same]
          dsimp only
          cases assemble slots'.reverse fields with
          | ok values => exact .accepted (.record values) rfl rfl
          | error flaw => exact .rejected rfl rfl

theorem closeObject_begins {start : List Char} (begins : Begins '\x7d' first input start) :
    closeObject input = .error .malformed := by
  obtain ⟨c, more, here, inside⟩ := begins.unclosed (by decide)
  rw [closeObject, here]
  split
  · next none => cases none
  · next same => exact absurd (List.cons.inj same).1 inside
  · rfl

theorem onlyEntry_of_length_ne {entries : List (String × Json)}
    (distinct : (entries.map Prod.fst).Nodup) (other : entries.length ≠ 1) :
    onlyEntry (sortEntries (entryReaders entries)) =
      mismatch (.wrongValue .map "map with a single key") := by
  have keys : ((entryReaders entries).map Prod.fst).Nodup := entryReaders_keys entries ▸ distinct
  have long : (sortEntries (entryReaders entries)).length = entries.length := by
    rw [(sortEntries_perm keys).length_eq, entryReaders_eq, List.length_map]
  rw [onlyEntry]
  intro only alone
  rw [alone] at long
  exact other long.symm

theorem readName_begins {more : List Char} (begins : Begins '\x7d' true input ('"' :: more)) :
    readName input = Json.readString more := by
  cases begins with
  | first here =>
      rw [readName, here]
      rfl

theorem single_agrees {γ : Type} {entries : List (String × Json)} (scope : Alternatives)
    (choose : String → Except ReadError γ) (payload : γ → Shape) (make : String → γ → Datum → Datum)
    (alike : Alike item read) (members : Members item fuel true input entries rest)
    (distinct : Json.keysDistinct (.object entries) = true) :
    Agree (do
        let (name, rest) ← readName input
        let chosen ← choose name
        let (value, rest) ← read scope (payload chosen) (← Json.expectColon rest)
        return (make name chosen value, ← closeObject rest))
      (do
        let (name, reader) ← onlyEntry (sortEntries (entryReaders entries))
        let chosen ← choose name
        return make name chosen (← reader scope (payload chosen)))
      rest := by
  obtain ⟨keys, each⟩ := Bool.and_eq_true_iff.mp distinct
  cases members with
  | closed here =>
      rw [readName, here, onlyEntry_of_length_ne (of_decide_eq_true keys) (by decide)]
      exact .rejected rfl rfl
  | @entry _ _ _ _ _ _ between _ key value entries begins name colon here walked =>
      have agrees := alike.agrees here (Bool.and_eq_true_iff.mp each).1 scope
      simp only [readName_begins begins, name, colon, ok_bind]
      cases entries with
      | nil =>
          have closed : closeObject between = .ok rest := by
            cases walked with
            | closed here =>
                rw [closeObject, here]
                rfl
          rw [entryReaders, entryReaders, sortEntries_singleton, onlyEntry, ok_bind]
          cases choose key with
          | error flaw => exact .rejected rfl rfl
          | ok chosen =>
              refine (agrees (payload chosen)).bind fun datum => ?_
              exact .accepted (make key chosen datum) (by simp only [closed, ok_bind]; rfl) rfl
      | cons second more =>
          have unclosed : closeObject between = .error .malformed := by
            cases walked with
            | entry begins => exact closeObject_begins begins
          rw [onlyEntry_of_length_ne (of_decide_eq_true keys) (by simp)]
          cases choose key with
          | error flaw => exact .rejected rfl rfl
          | ok chosen =>
              exact (agrees (payload chosen)).stuck fun datum =>
                ⟨.malformed, by simp only [unclosed]; rfl⟩

end Bracketed

end TurnObligations.Storage
