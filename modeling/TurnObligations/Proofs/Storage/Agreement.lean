import TurnObligations.Proofs.Json.Parse
import TurnObligations.Proofs.Storage.Value
import TurnObligations.Storage.Text

/-!
What it means that a reader of text and a reader of JSON values accept the same, and that they do so
for scalars.
-/

namespace TurnObligations

namespace Json

mutual

def keysDistinct : Json → Bool
  | .array items => keysDistinctItems items
  | .object entries => decide (entries.map Prod.fst).Nodup && keysDistinctEntries entries
  | _ => true

def keysDistinctItems : List Json → Bool
  | [] => true
  | item :: rest => keysDistinct item && keysDistinctItems rest

def keysDistinctEntries : List (String × Json) → Bool
  | [] => true
  | (_, value) :: rest => keysDistinct value && keysDistinctEntries rest

end

end Json

namespace Storage

open Json (Reader Parsed skipBlanks)

/-- A reader of text and a reader of the value there accept the same, the former up to `rest`, or
neither accepts anything. -/
inductive Agree {α : Type} (read : Except ReadError (α × List Char)) (value : Except ReadError α)
    (rest : List Char) : Prop
  | accepted (datum : α) (took : read = .ok (datum, rest)) (gave : value = .ok datum)
  | rejected {flaw flaw' : ReadError} (failed : read = .error flaw) (refused : value = .error flaw')

namespace Agree

variable {α β : Type} {read : Except ReadError (α × List Char)} {value : Except ReadError α}
  {between rest : List Char}

theorem lift (value : Except ReadError α) (rest : List Char) :
    Agree (do return (← value, rest)) value rest := by
  cases value with
  | ok datum => exact .accepted datum rfl rfl
  | error flaw => exact .rejected rfl rfl

theorem bind {later : α × List Char → Except ReadError (β × List Char)}
    {onward : α → Except ReadError β} (first : Agree read value between)
    (after : ∀ datum, Agree (later (datum, between)) (onward datum) rest) :
    Agree (read >>= later) (value >>= onward) rest := by
  cases first with
  | accepted datum took gave =>
      rw [took, gave]
      exact after datum
  | rejected failed refused =>
      rw [failed, refused]
      exact .rejected rfl rfl

theorem stuck {later : α × List Char → Except ReadError (β × List Char)} {flaw : ReadError}
    (first : Agree read value between)
    (stops : ∀ datum, ∃ flaw, later (datum, between) = .error flaw) :
    Agree (read >>= later) (.error flaw) rest := by
  cases first with
  | accepted datum took =>
      obtain ⟨_, failed⟩ := stops datum
      rw [took]
      exact .rejected failed rfl
  | rejected failed =>
      rw [failed]
      exact .rejected rfl rfl

theorem map (make : α → β) (agree : Agree read value rest) :
    Agree (do let (datum, rest) ← read; return (make datum, rest))
      (do return make (← value)) rest :=
  agree.bind fun datum => .accepted (make datum) rfl rfl

end Agree

/-! ### Scalars -/

theorem bind_fails {α β : Type} {next : β → Except ReadError α}
    (stops : ∀ value, ∃ flaw, next value = .error flaw) (read : Except ReadError β) :
    ∃ flaw, read >>= next = .error flaw := by
  cases read with
  | ok value => exact stops value
  | error flaw => exact ⟨flaw, rfl⟩

theorem refuse_fails {α : Type} (expected : String) (input : List Char) :
    ∃ flaw, (refuse expected input : Except ReadError α) = .error flaw := by
  rw [refuse.eq_def]
  split
  case h_8 =>
    split
    · exact bind_fails (fun _ => ⟨_, rfl⟩) _
    · exact ⟨_, rfl⟩
  all_goals first | exact ⟨_, rfl⟩ | exact bind_fails (fun _ => ⟨_, rfl⟩) _

theorem Agree.refused {α : Type} {expected : String} {input rest : List Char}
    {value : Except ReadError α} {flaw : ReadError} (wrong : value = .error flaw) :
    Agree (refuse expected input) value rest :=
  have ⟨_, failed⟩ := refuse_fails expected input
  .rejected failed wrong

theorem Agree.refused_bind {α β : Type} {expected : String} {input rest : List Char}
    {next : β → Except ReadError (α × List Char)} {value : Except ReadError α} {flaw : ReadError}
    (wrong : value = .error flaw) : Agree (refuse expected input >>= next) value rest := by
  obtain ⟨_, failed⟩ := refuse_fails (α := β) expected input
  rw [failed]
  exact .rejected rfl wrong

theorem digit_head_ne {c d : Char} {more rest : List Char} (digit : c.isDigit = true)
    (other : d.isDigit = false) : c :: more ≠ d :: rest := by
  intro same
  cases same
  rw [digit] at other
  cases other

section Leaf

variable {inner : Option (Reader Json)} {input text rest : List Char} {json : Json}
  {scope : Alternatives}

theorem readUnit_agrees (here : skipBlanks input = text) (parsed : Parsed inner text json rest) :
    Agree (readUnit input) (valueReader json scope .unit) rest := by
  rw [readUnit, here]
  cases parsed with
  | array | object => exact .refused rfl
  | scalar scalar =>
      cases scalar with
      | null word => exact .accepted .unit (by simp only [word, ok_bind]; rfl) rfl
      | yes | no | text => exact .refused rfl
      | @negative _ _ numeral => cases numeral <;> exact .refused rfl
      | @number _ _ _ numeral digit =>
          split
          · next same => exact absurd same (digit_head_ne digit rfl)
          · cases numeral <;> exact .refused rfl

theorem readBool_agrees (here : skipBlanks input = text) (parsed : Parsed inner text json rest) :
    Agree (readBool input) (valueReader json scope .bool) rest := by
  rw [readBool, here]
  cases parsed with
  | array | object => exact .refused rfl
  | scalar scalar =>
      cases scalar with
      | yes word => exact .accepted (.bool true) (by simp only [word, ok_bind]; rfl) rfl
      | no word => exact .accepted (.bool false) (by simp only [word, ok_bind]; rfl) rfl
      | null | text => exact .refused rfl
      | @negative _ _ numeral => cases numeral <;> exact .refused rfl
      | @number _ _ _ numeral digit =>
          split
          · next same => exact absurd same (digit_head_ne digit rfl)
          · next same => exact absurd same (digit_head_ne digit rfl)
          · cases numeral <;> exact .refused rfl

theorem readText_agrees {known : String → Bool} (here : skipBlanks input = text)
    (parsed : Parsed inner text json rest) :
    Agree (do
        let (text, rest) ← readText input
        return (← ofWord known text, rest))
      (valueReader json scope (.word known)) rest := by
  rw [readText, here]
  cases parsed with
  | array | object => exact .refused_bind rfl
  | scalar scalar =>
      cases scalar with
      | text read =>
          simp only [read, ok_bind]
          exact .lift _ _
      | null | yes | no => exact .refused_bind rfl
      | @negative _ _ numeral => cases numeral <;> exact .refused_bind rfl
      | @number _ _ _ numeral digit =>
          split
          · next same => exact absurd same (digit_head_ne digit rfl)
          · cases numeral <;> exact .refused_bind rfl

theorem valueReader_ofNumeral (numeral : Json.Numeral) (shape : Shape) :
    valueReader (Json.ofNumeral numeral) scope shape = ofNumeral shape numeral := by
  cases numeral <;> rfl

theorem readNumber_other {shape : Shape} {c : Char} {more : List Char}
    (here : skipBlanks input = c :: more) (sign : c ≠ '-') (other : c.isDigit = false) :
    readNumber shape input = refuse shape.expectation (c :: more) := by
  rw [readNumber, here]
  split
  · next same => exact absurd (List.cons.inj same).1 sign
  · next same =>
      cases same
      rw [other]
      rfl
  · next same => cases same

theorem readNumber_agrees {shape : Shape}
    (numeric : shape = .byte ∨ shape = .count ∨ shape = .index ∨ shape = .signed)
    (here : skipBlanks input = text) (parsed : Parsed inner text json rest) :
    Agree (readNumber shape input) (valueReader json scope shape) rest := by
  cases parsed with
  | array | object =>
      rw [readNumber_other here (by decide) rfl]
      rcases numeric with rfl | rfl | rfl | rfl <;> exact .refused rfl
  | scalar scalar =>
      cases scalar with
      | null | yes | no | text =>
          rw [readNumber_other here (by decide) rfl]
          rcases numeric with rfl | rfl | rfl | rfl <;> exact .refused rfl
      | negative read =>
          simp only [readNumber, here, read, ok_bind, valueReader_ofNumeral]
          exact .lift _ _
      | number digit read =>
          rw [readNumber, here]
          split
          · next same => exact absurd same (digit_head_ne digit rfl)
          · next same =>
              cases same
              simp only [digit, if_true, read, ok_bind, valueReader_ofNumeral]
              exact .lift _ _
          · next same => cases same

end Leaf

end Storage

end TurnObligations
