import Mathlib
import TurnObligations.Obligation.Build
import TurnObligations.Obligation.Storage
import TurnObligations.Proofs.Storage.Brackets
import TurnObligations.Proofs.Storage.Lawful
import TurnObligations.Scripted.Game

/-!
The two JSON readers accept the same. Where a text can be parsed and no object in it repeats a key,
reading a shape from the text in one pass gives what reading it from the parsed value gives, and stops
where parsing stops.
-/

namespace TurnObligations

namespace Storage

open Json (Reader Parsed skipBlanks)

inductive Inside : Option (Reader Json) → Option (Alternatives → Shape → Reader Datum) → Prop
  | none : Inside none none
  | some {item : Reader Json} {read : Alternatives → Shape → Reader Datum} (alike : Alike item read) :
      Inside (some item) (some read)

section Whole

variable {inner : Option (Reader Json)} {deeper : Option (Alternatives → Shape → Reader Datum)}
  {input text rest : List Char} {json : Json}

theorem readVariant_agrees (inside : Inside inner deeper) (here : skipBlanks input = text)
    (parsed : Parsed inner text json rest) (distinct : json.keysDistinct = true)
    (scope alternatives : Alternatives) :
    Agree (readVariant (deeper.map (· scope)) alternatives input)
      (valueReader json scope (.variants alternatives)) rest := by
  rw [readVariant, here]
  cases parsed with
  | array => exact .rejected rfl rfl
  | object members =>
      cases inside with
      | some alike =>
          exact single_agrees scope (chooseVariant alternatives) Prod.snd
            (fun name chosen value => .variant chosen.1 name value) alike members distinct
  | scalar scalar =>
      cases scalar with
      | null | yes | no => exact .rejected rfl rfl
      | text read =>
          simp only [read, ok_bind]
          exact .lift _ _
      | @negative _ _ numeral => cases numeral <;> exact .rejected rfl rfl
      | @number _ _ _ numeral digit =>
          split
          · next same => exact absurd same (digit_head_ne digit rfl)
          · next same => exact absurd same (digit_head_ne digit rfl)
          · cases numeral <;> exact .rejected rfl rfl

theorem readLabel_agrees (inside : Inside inner deeper) (here : skipBlanks input = text)
    (parsed : Parsed inner text json rest) (distinct : json.keysDistinct = true)
    (scope : Alternatives) (names : List String) :
    Agree (readLabel (deeper.map (· scope)) names input) (valueReader json scope (.labels names))
      rest := by
  rw [readLabel, here]
  cases parsed with
  | array => exact .rejected rfl rfl
  | object members =>
      cases inside with
      | some alike =>
          exact single_agrees scope (chooseLabel names) (fun _ => .unit) (fun _ label _ => label)
            alike members distinct
  | scalar scalar =>
      cases scalar with
      | null | yes | no => exact .rejected rfl rfl
      | text read =>
          simp only [read, ok_bind]
          exact .lift _ _
      | @negative _ _ numeral => cases numeral <;> exact .rejected rfl rfl
      | @number _ _ _ numeral digit =>
          split
          · next same => exact absurd same (digit_head_ne digit rfl)
          · next same => exact absurd same (digit_head_ne digit rfl)
          · cases numeral <;> exact .rejected rfl rfl

theorem readList_agrees (inside : Inside inner deeper) (here : skipBlanks input = text)
    (parsed : Parsed inner text json rest) (distinct : json.keysDistinct = true)
    (scope : Alternatives) (item : Shape) :
    Agree (readWith deeper scope (.list item) input) (valueReader json scope (.list item)) rest := by
  rw [readWith]
  dsimp only
  rw [here]
  cases parsed with
  | array elements =>
      cases inside with
      | some alike =>
          exact (items_agree alike elements distinct).map Datum.list
  | object => exact .refused rfl
  | scalar scalar =>
      cases scalar with
      | null | yes | no | text => exact .refused rfl
      | @negative _ _ numeral => cases numeral <;> exact .refused rfl
      | @number _ _ _ numeral digit =>
          split
          · next same => exact absurd same (digit_head_ne digit rfl)
          · next same => exact absurd same (digit_head_ne digit rfl)
          · cases numeral <;> exact .refused rfl

theorem readRecord_agrees (inside : Inside inner deeper) (here : skipBlanks input = text)
    (parsed : Parsed inner text json rest) (distinct : json.keysDistinct = true)
    (scope : Alternatives) (name : String) (fields : List (String × Shape)) :
    Agree (readWith deeper scope (.record name fields) input)
      (valueReader json scope (.record name fields)) rest := by
  rw [readWith]
  dsimp only
  rw [here]
  cases parsed with
  | array elements =>
      cases inside with
      | some alike =>
          exact (fieldItems_agree alike elements distinct rfl).map Datum.record
  | object members =>
      cases inside with
      | some alike => exact record_agrees alike members distinct
  | scalar scalar =>
      cases scalar with
      | null | yes | no | text => exact .refused rfl
      | @negative _ _ numeral => cases numeral <;> exact .refused rfl
      | @number _ _ _ numeral digit =>
          split
          · next same => exact absurd same (digit_head_ne digit rfl)
          · next same => exact absurd same (digit_head_ne digit rfl)
          · next same => exact absurd same (digit_head_ne digit rfl)
          · next same => exact absurd same (digit_head_ne digit rfl)
          · cases numeral <;> exact .refused rfl

theorem valueReader_reserved (json : Json) (scope : Alternatives) (limit : Nat) (item : Shape) :
    valueReader json scope (.reserved limit item) = valueReader json scope (.list item) := by
  cases json <;> rfl

theorem valueReader_recursive (json : Json) (scope alternatives : Alternatives) :
    valueReader json scope (.recursive alternatives) =
      valueReader json alternatives (.variants alternatives) := by
  cases json <;> rfl

theorem valueReader_recur (json : Json) (scope : Alternatives) :
    valueReader json scope .recur = valueReader json scope (.variants scope) := by
  cases json <;> rfl

theorem skipBlanks_idem (input : List Char) : skipBlanks (skipBlanks input) = skipBlanks input := by
  cases here : skipBlanks input with
  | nil => rfl
  | cons c rest => exact Json.skipBlanks_of_head here

theorem shown_of_head {c : Char} {more : List Char} (parsed : Parsed inner (c :: more) json rest)
    (other : c ≠ 'n') : json ≠ .null := by
  cases parsed with
  | array | object => nofun
  | scalar scalar =>
      cases scalar with
      | null => exact absurd rfl other
      | yes | no | text => nofun
      | @negative _ _ numeral => cases numeral <;> nofun
      | @number _ _ _ numeral => cases numeral <;> nofun

theorem readOption_agrees {item : Shape} {scope : Alternatives} (here : skipBlanks input = text)
    (parsed : Parsed inner text json rest)
    (held : Agree (readWith deeper scope item text) (valueReader json scope item) rest) :
    Agree (readWith deeper scope (.option item) input) (valueReader json scope (.option item))
      rest := by
  rw [readWith]
  dsimp only
  rw [here]
  split
  · cases parsed with
    | scalar scalar =>
        cases scalar with
        | null word => exact .accepted .absent (by simp only [word, ok_bind]; rfl) rfl
        | number digit => exact absurd digit (by decide)
  · next other =>
      have shown : json ≠ .null := by
        cases text with
        | nil =>
            cases parsed with
            | scalar scalar => cases scalar
        | cons c more =>
            refine shown_of_head parsed ?_
            rintro rfl
            exact other more rfl
      rw [valueReader_option_eq shown]
      exact held.map Datum.present

theorem readWith_agrees (inside : Inside inner deeper) (parsed : Parsed inner text json rest)
    (distinct : json.keysDistinct = true) (scope : Alternatives) :
    ∀ (shape : Shape) {input : List Char}, skipBlanks input = text →
      Agree (readWith deeper scope shape input) (valueReader json scope shape) rest
  | .unit, _, here => readUnit_agrees here parsed
  | .bool, _, here => readBool_agrees here parsed
  | .byte, _, here => readNumber_agrees (.inl rfl) here parsed
  | .count, _, here => readNumber_agrees (.inr (.inl rfl)) here parsed
  | .index, _, here => readNumber_agrees (.inr (.inr (.inl rfl))) here parsed
  | .signed, _, here => readNumber_agrees (.inr (.inr (.inr rfl))) here parsed
  | .word _, _, here => readText_agrees here parsed
  | .option item, _, here =>
      readOption_agrees here parsed
        (readWith_agrees inside parsed distinct scope item (here ▸ skipBlanks_idem _))
  | .list item, _, here => readList_agrees inside here parsed distinct scope item
  | .reserved _ item, _, here => by
      rw [valueReader_reserved]
      exact readList_agrees inside here parsed distinct scope item
  | .record name fields, _, here => readRecord_agrees inside here parsed distinct scope name fields
  | .variants alternatives, _, here =>
      readVariant_agrees inside here parsed distinct scope alternatives
  | .labels names, _, here => readLabel_agrees inside here parsed distinct scope names
  | .recursive alternatives, _, here => by
      rw [valueReader_recursive]
      exact readVariant_agrees inside here parsed distinct alternatives alternatives
  | .recur, _, here => by
      rw [valueReader_recur]
      exact readVariant_agrees inside here parsed distinct scope scope

end Whole

theorem readNested_agrees {depth : Nat} {input rest : List Char} {json : Json}
    (parsed : Json.parseNested depth input = .ok (json, rest)) (distinct : json.keysDistinct = true)
    (scope : Alternatives) (shape : Shape) :
    Agree (readNested depth scope shape input) (valueReader json scope shape) rest := by
  induction depth generalizing input rest json scope shape with
  | zero => exact readWith_agrees .none (Json.parsed_of_parseWith parsed) distinct scope shape rfl
  | succ depth ih =>
      -- inside one more bracket the readers are alike by induction
      have alike : Alike (Json.parseNested depth) (readNested depth) :=
        ⟨Json.skips_of_parseNested, ih⟩
      exact readWith_agrees (.some alike) (Json.parsed_of_parseWith parsed) distinct scope shape rfl

theorem readDatum_eq_ok_iff {text : String} {json : Json} (parsed : Json.parse text = .ok json)
    (distinct : json.keysDistinct = true) (shape : Shape) (datum : Datum) :
    readDatum shape text = .ok datum ↔ ofJson shape json = .ok datum := by
  rw [Json.parse, Json.finish.eq_def] at parsed
  split at parsed
  · cases parsed
  · next value rest read =>
      split at parsed
      · next ended =>
          cases parsed
          rw [readDatum, ofJson]
          cases readNested_agrees read distinct [] shape with
          | accepted datum took gave => rw [took, gave, Json.finish, if_pos ended]
          | rejected failed refused =>
              rw [failed, refused]
              simp [Json.finish]
      · cases parsed

theorem rebuild_eq_ok_iff {α : Type} [Storable α] {read : Except ReadError Datum} {value : α} :
    rebuild read = .ok value ↔ ∃ datum, read = .ok datum ∧ Storable.ofDatum? datum = some value := by
  cases read with
  | error flaw => simp [rebuild]
  | ok datum =>
      rw [rebuild]
      cases found : (Storable.ofDatum? datum : Option α) with
      | none => simp [found]
      | some value => simp [found]

end Storage

namespace Saved

variable {α : Type} [Saved α]

theorem ofText?_eq_ok_iff {text : String} {json : Json} (parsed : Json.parse text = .ok json)
    (distinct : json.keysDistinct = true) (value : α) :
    ofText? text = .ok value ↔ ofJson? json = .ok value := by
  simp only [ofText?, ofJson?, Storage.ofText?, Storage.ofJson?, check_eq_ok_iff,
    Storage.rebuild_eq_ok_iff, Storage.readDatum_eq_ok_iff parsed distinct]

end Saved

/-- A text in which no object repeats a key is restored to the same trees as the JSON value that it
parses to, however its records are written: only the complaint about one that is no tree may differ. -/
theorem saved_readers_agree {Action : Type} [NamedAction Action] {text : String} {json : Json}
    (parsed : Json.parse text = .ok json) (distinct : json.keysDistinct = true)
    (tree : Obligation Action) : Saved.ofText? text = .ok tree ↔ Saved.ofJson? json = .ok tree :=
  Saved.ofText?_eq_ok_iff parsed distinct tree

/-- A `repeat` under an escaped name with its fields out of order, one of them unknown and one
missing, around a `single` written as an array. -/
theorem saved_readers_agree_loose :
    let text := "\x7b\"repe\\u0061t\":\x7b\"count\":0, \"note\":[1.5], \"template\":" ++
      "\x7b\"single\":[\"Draw\", true, false]\x7d,\n\"atMost\":2, \"atLeast\":1\x7d\x7d\n"
    let json : Json := .object [("repeat", .object
      [("count", .integer 0), ("note", .array [.fraction "1.5"]),
        ("template", .object [("single", .array [.text "Draw", .bool true, .bool false])]),
        ("atMost", .integer 2), ("atLeast", .integer 1)])]
    let tree : Obligation Scripted.Action := .freshRepeat 1 2 (.mandatory .draw)
    (Json.parse text = .ok json ∧ json.keysDistinct = true) ∧
      Saved.ofText? text = .ok tree ∧ Saved.ofJson? json = .ok tree := by
  intro text json tree
  have parsed : Json.parse text = .ok json := by
    subst text
    cbv
  have distinct : json.keysDistinct = true := by
    subst json
    cbv
  have restored : Saved.ofText? text = .ok tree := by
    subst text
    cbv
  exact ⟨⟨parsed, distinct⟩, restored, (saved_readers_agree parsed distinct tree).mp restored⟩

end TurnObligations
