import TurnObligations.Json.Parse
import TurnObligations.Proofs.Answer

/-!
What reading a JSON value from text has found there: a scalar, or brackets walked through item by item.
-/

namespace TurnObligations.Json

theorem skipBlanks_of_head {input rest : List Char} {c : Char}
    (here : skipBlanks input = c :: rest) : skipBlanks (c :: rest) = c :: rest := by
  induction input with
  | nil => cases here
  | cons first more ih =>
      rw [skipBlanks, List.dropWhile_cons] at here
      split at here
      · exact ih here
      · next solid =>
          cases here
          rw [skipBlanks, List.dropWhile_cons, if_neg solid]

theorem length_skipBlanks_le (input : List Char) : (skipBlanks input).length ≤ input.length :=
  (List.dropWhile_sublist _).length_le

theorem length_of_head {input rest : List Char} {c : Char} (here : skipBlanks input = c :: rest) :
    rest.length < input.length := by
  have within := length_skipBlanks_le input
  rw [here, List.length_cons] at within
  omega

/-! ### Walks through brackets -/

/-- The next item inside brackets begins at `start`: at once in brackets just opened, and otherwise
behind a comma. -/
inductive Begins (closing : Char) : (first : Bool) → (input start : List Char) → Prop
  | first {input rest : List Char} {c : Char} (here : skipBlanks input = c :: rest)
      (inside : c ≠ closing) : Begins closing true input (c :: rest)
  | later {input behind rest : List Char} {c : Char} (comma : skipBlanks input = ',' :: behind)
      (here : skipBlanks behind = c :: rest) (inside : c ≠ closing) :
      Begins closing false input (c :: rest)

theorem Begins.length_le {closing : Char} {first : Bool} {input start : List Char}
    (begins : Begins closing first input start) : start.length ≤ input.length := by
  cases begins with
  | first here => exact Nat.succ_le_of_lt (length_of_head here)
  | later comma here =>
      have behind := length_of_head comma
      have within := length_of_head here
      rw [List.length_cons]
      omega

theorem Begins.unclosed {closing : Char} {first : Bool} {input start : List Char}
    (begins : Begins closing first input start) (apart : ',' ≠ closing) :
    ∃ c more, skipBlanks input = c :: more ∧ c ≠ closing := by
  cases begins with
  | first here inside => exact ⟨_, _, here, inside⟩
  | later comma => exact ⟨_, _, comma, apart⟩

section Items

variable {α : Type} {item : Reader α} {fuel : Nat} {first : Bool} {input start rest : List Char}

theorem readItems_closed (here : skipBlanks input = ']' :: rest) :
    readItems item (fuel + 1) first input = .ok ([], rest) := by
  rw [readItems, here]
  rfl

theorem readItems_begins (begins : Begins ']' first input start) :
    readItems item (fuel + 1) first input = (do
      let (head, rest) ← item start
      let (tail, rest) ← readItems item fuel false rest
      return (head :: tail, rest)) := by
  cases begins with
  | first here inside =>
      rw [readItems, here]
      split
      · next none => cases none
      · next same => exact absurd (List.cons.inj same).1 inside
      · next same =>
          cases same
          rfl
  | later comma here inside =>
      rw [readItems, comma]
      split
      · next none => cases none
      · next same => cases same
      · next same =>
          cases same
          dsimp only
          rw [if_neg Bool.false_ne_true, if_pos rfl, here]
          split
          · next none => cases none
          · next same => exact absurd (List.cons.inj same).1 inside
          · rfl

inductive Elements (item : Reader α) : Nat → Bool → List Char → List α → List Char → Prop
  | closed {fuel : Nat} {first : Bool} {input rest : List Char}
      (here : skipBlanks input = ']' :: rest) : Elements item (fuel + 1) first input [] rest
  | item {fuel : Nat} {first : Bool} {input start between rest : List Char} {head : α}
      {tail : List α} (begins : Begins ']' first input start)
      (read : item start = .ok (head, between))
      (more : Elements item fuel false between tail rest) :
      Elements item (fuel + 1) first input (head :: tail) rest

theorem elements_of_readItems {values : List α}
    (read : readItems item fuel first input = .ok (values, rest)) :
    Elements item fuel first input values rest := by
  induction fuel generalizing first input values with
  | zero => cases read
  | succ fuel ih =>
      have taken {start : List Char} (begins : Begins ']' first input start) :
          Elements item (fuel + 1) first input values rest := by
        rw [readItems_begins begins] at read
        obtain ⟨⟨head, between⟩, here, read⟩ := bind_eq_ok.mp read
        obtain ⟨⟨tail, after⟩, more, result⟩ := bind_eq_ok.mp read
        cases result
        exact .item begins here (ih more)
      rw [readItems] at read
      split at read
      · cases read
      · next here =>
          cases read
          exact .closed here
      · next c behind inside here =>
          dsimp only at read
          split at read
          · next fresh =>
              subst fresh
              exact taken (.first here inside)
          · next begun =>
              rw [Bool.not_eq_true] at begun
              subst begun
              split at read
              · next comma =>
                  subst comma
                  split at read
                  · cases read
                  · cases read
                  · next notEnd notClosing =>
                      cases next : skipBlanks behind with
                      | nil => exact absurd next notEnd
                      | cons c rest =>
                          refine taken (.later here next ?_)
                          rintro rfl
                          exact notClosing rest next
              · cases read

end Items

section Entries

variable {σ : Type} {entry : σ → String → List Char → Except ReadError (σ × List Char)}
  {fuel : Nat} {first : Bool} {state : σ} {input more rest : List Char}

theorem readEntries_closed (here : skipBlanks input = '\x7d' :: rest) :
    readEntries entry (fuel + 1) first state input = .ok (state, rest) := by
  rw [readEntries, here]
  rfl

theorem readEntries_begins (begins : Begins '\x7d' first input ('"' :: more)) :
    readEntries entry (fuel + 1) first state input = (do
      let (key, rest) ← readString more
      let (state, rest) ← entry state key rest
      readEntries entry fuel false state rest) := by
  cases begins with
  | first here =>
      rw [readEntries, here]
      rfl
  | later comma here =>
      rw [readEntries, comma]
      split
      · next none => cases none
      · next same => cases same
      · next same =>
          cases same
          dsimp only
          rw [if_neg Bool.false_ne_true, if_pos rfl, here]
          rfl

def parseEntry (item : Reader Json) (entries : List (String × Json)) (key : String)
    (input : List Char) : Except ReadError (List (String × Json) × List Char) := do
  let (value, rest) ← item (← expectColon input)
  return ((key, value) :: entries, rest)

inductive Members (item : Reader Json) :
    Nat → Bool → List Char → List (String × Json) → List Char → Prop
  | closed {fuel : Nat} {first : Bool} {input rest : List Char}
      (here : skipBlanks input = '\x7d' :: rest) : Members item (fuel + 1) first input [] rest
  | entry {fuel : Nat} {first : Bool} {input more named start between rest : List Char}
      {key : String} {value : Json} {entries : List (String × Json)}
      (begins : Begins '\x7d' first input ('"' :: more)) (name : readString more = .ok (key, named))
      (colon : expectColon named = .ok start) (read : item start = .ok (value, between))
      (walked : Members item fuel false between entries rest) :
      Members item (fuel + 1) first input ((key, value) :: entries) rest

theorem members_of_readEntries {item : Reader Json} {entries after : List (String × Json)}
    (read : readEntries (parseEntry item) fuel first entries input = .ok (after, rest)) :
    ∃ found, after = found.reverse ++ entries ∧ Members item fuel first input found rest := by
  induction fuel generalizing first input entries with
  | zero => cases read
  | succ fuel ih =>
      have taken {more : List Char} (begins : Begins '\x7d' first input ('"' :: more)) :
          ∃ found, after = found.reverse ++ entries ∧
            Members item (fuel + 1) first input found rest := by
        rw [readEntries_begins begins] at read
        obtain ⟨⟨key, named⟩, name, read⟩ := bind_eq_ok.mp read
        obtain ⟨⟨longer, between⟩, here, read⟩ := bind_eq_ok.mp read
        obtain ⟨start, colon, here⟩ := bind_eq_ok.mp here
        obtain ⟨⟨value, left⟩, here, result⟩ := bind_eq_ok.mp here
        cases result
        obtain ⟨found, rfl, walked⟩ := ih read
        exact ⟨(key, value) :: found, by simp, .entry begins name colon here walked⟩
      rw [readEntries] at read
      split at read
      · cases read
      · next here =>
          cases read
          exact ⟨[], rfl, .closed here⟩
      · next c behind inside here =>
          dsimp only at read
          split at read
          · next fresh =>
              subst fresh
              rw [pure_bind] at read
              split at read
              · next same =>
                  cases same
                  exact taken (.first here (by decide))
              · cases read
          · next begun =>
              rw [Bool.not_eq_true] at begun
              subst begun
              split at read
              · next comma =>
                  subst comma
                  split at read
                  · cases read
                  · rw [pure_bind] at read
                    split at read
                    · next next => exact taken (.later here next (by decide))
                    · cases read
              · cases read

end Entries

/-! ### Whole values -/

inductive Scalar : List Char → Json → List Char → Prop
  | null {more rest : List Char} (word : expectWord ['u', 'l', 'l'] more = .ok rest) :
      Scalar ('n' :: more) .null rest
  | yes {more rest : List Char} (word : expectWord ['r', 'u', 'e'] more = .ok rest) :
      Scalar ('t' :: more) (.bool true) rest
  | no {more rest : List Char} (word : expectWord ['a', 'l', 's', 'e'] more = .ok rest) :
      Scalar ('f' :: more) (.bool false) rest
  | negative {more rest : List Char} {numeral : Numeral}
      (read : readNumeral true more = .ok (numeral, rest)) :
      Scalar ('-' :: more) (ofNumeral numeral) rest
  | number {c : Char} {more rest : List Char} {numeral : Numeral} (digit : c.isDigit = true)
      (read : readNumeral false (c :: more) = .ok (numeral, rest)) :
      Scalar (c :: more) (ofNumeral numeral) rest
  | text {more rest : List Char} {value : String} (read : readString more = .ok (value, rest)) :
      Scalar ('"' :: more) (.text value) rest

/-- A text that begins with a value, whose brackets, if any, hold values that `inner` reads. -/
inductive Parsed : Option (Reader Json) → List Char → Json → List Char → Prop
  | scalar {inner : Option (Reader Json)} {text rest : List Char} {json : Json}
      (scalar : Scalar text json rest) : Parsed inner text json rest
  | array {item : Reader Json} {more rest : List Char} {items : List Json}
      (elements : Elements item (more.length + 1) true more items rest) :
      Parsed (some item) ('[' :: more) (.array items) rest
  | object {item : Reader Json} {more rest : List Char} {entries : List (String × Json)}
      (members : Members item (more.length + 1) true more entries rest) :
      Parsed (some item) ('\x7b' :: more) (.object entries) rest

theorem parsed_of_parseWith {inner : Option (Reader Json)} {input rest : List Char} {json : Json}
    (read : parseWith inner input = .ok (json, rest)) :
    Parsed inner (skipBlanks input) json rest := by
  rw [parseWith] at read
  split at read
  · cases read
  · next here =>
      obtain ⟨after, word, result⟩ := bind_eq_ok.mp read
      cases result
      exact here ▸ .scalar (.null word)
  · next here =>
      obtain ⟨after, word, result⟩ := bind_eq_ok.mp read
      cases result
      exact here ▸ .scalar (.yes word)
  · next here =>
      obtain ⟨after, word, result⟩ := bind_eq_ok.mp read
      cases result
      exact here ▸ .scalar (.no word)
  · next here =>
      obtain ⟨⟨numeral, after⟩, number, result⟩ := bind_eq_ok.mp read
      cases result
      exact here ▸ .scalar (.negative number)
  · next here =>
      obtain ⟨⟨value, after⟩, text, result⟩ := bind_eq_ok.mp read
      cases result
      exact here ▸ .scalar (.text text)
  · next here =>
      split at read
      · cases read
      · obtain ⟨⟨items, after⟩, walked, result⟩ := bind_eq_ok.mp read
        cases result
        exact here ▸ .array (elements_of_readItems walked)
  · next here =>
      split at read
      · cases read
      · obtain ⟨⟨entries, after⟩, walked, result⟩ := bind_eq_ok.mp read
        cases result
        obtain ⟨found, rfl, members⟩ := members_of_readEntries walked
        rw [List.append_nil, List.reverse_reverse]
        exact here ▸ .object members
  · next here =>
      split at read
      · next digit =>
          obtain ⟨⟨numeral, after⟩, number, result⟩ := bind_eq_ok.mp read
          cases result
          exact here ▸ .scalar (.number digit number)
      · cases read

end TurnObligations.Json
