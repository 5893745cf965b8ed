import TurnObligations.Proofs.Json.Parse
import TurnObligations.Proofs.Json.Token

/-!
A value that can be read can be passed over, and both end at the same place in the text.
-/

namespace TurnObligations.Json

/-- Passing over a value goes from `input` to `rest`, whatever brackets are open around it: its head
opens `inside`, which takes `steps` to be closed. -/
inductive Skips (input rest : List Char) : Prop
  | passes (fresh : Bool) (inside : List Bracket) (left : List Char) (steps : Nat)
      (shorter : left.length < input.length) (within : steps + rest.length ≤ left.length)
      (head : ∀ opened, skipHead opened input = .ok (fresh, inside ++ opened, left))
      (tail : ∀ opened spare,
        skipOpened (steps + spare) fresh (inside ++ opened) left = skipOpened spare false opened rest)

theorem Skips.skipValue {input rest : List Char} (skips : Skips input rest) :
    skipValue input = .ok rest := by
  obtain ⟨fresh, inside, left, steps, _, within, head, tail⟩ := skips
  rw [Json.skipValue, head, ok_bind]
  dsimp only
  rw [← Nat.add_sub_cancel' (Nat.le_of_add_right_le within), tail, skipOpened]

theorem skipHead_of_head {input rest : List Char} {c : Char} (here : skipBlanks input = c :: rest)
    (opened : List Bracket) : skipHead opened input = skipHead opened (c :: rest) := by
  rw [skipHead, skipHead, here, skipBlanks_of_head here]

theorem skipKey_of_head {input rest : List Char} {c : Char} (here : skipBlanks input = c :: rest) :
    skipKey .curly input = skipKey .curly (c :: rest) := by
  rw [skipKey, skipKey, here, skipBlanks_of_head here]

theorem closing_ne_comma (bracket : Bracket) : ',' ≠ bracket.closing := by
  cases bracket <;> decide

section Brackets

variable {bracket : Bracket} {outer : List Bracket} {fuel : Nat} {first : Bool}
  {input start rest : List Char}

theorem skipOpened_closed (here : skipBlanks input = bracket.closing :: rest) :
    skipOpened (fuel + 1) first (bracket :: outer) input = skipOpened fuel false outer rest := by
  rw [skipOpened, here]
  exact if_pos rfl

theorem skipOpened_begins (begins : Begins bracket.closing first input start) :
    skipOpened (fuel + 1) first (bracket :: outer) input = (do
      let (fresh, opened, rest) ← skipHead (bracket :: outer) (← skipKey bracket start)
      skipOpened fuel fresh opened rest) := by
  cases begins with
  | first here inside =>
      rw [skipOpened, here]
      dsimp only
      rw [if_neg inside, if_pos rfl]
  | later comma here inside =>
      rw [skipOpened, comma]
      dsimp only
      rw [if_neg (closing_ne_comma bracket), if_neg Bool.false_ne_true, if_pos rfl]
      cases bracket with
      | square =>
          rw [skipKey, skipKey, ok_bind, ok_bind, skipHead_of_head here]
      | curly => rw [skipKey_of_head here]

theorem skipKey_named {more named start : List Char} {key : String}
    (name : readString more = .ok (key, named)) (colon : expectColon named = .ok start) :
    skipKey .curly ('"' :: more) = .ok start ∧ start.length ≤ more.length := by
  have passed := skipString_of_readString name
  have shorter := length_of_skipChars passed
  constructor
  · have quoted : skipBlanks ('"' :: more) = '"' :: more := rfl
    rw [skipKey, quoted]
    show (skipString more >>= expectColon) = .ok start
    rw [passed, ok_bind, colon]
  · rw [expectColon] at colon
    split at colon
    · cases colon
    · next here =>
        cases colon
        have within := length_of_head here
        omega
    · cases colon

/-- Passing over what is left of a bracket goes from `input` to `rest`. -/
inductive Closes (bracket : Bracket) (first : Bool) (input rest : List Char) : Prop
  | takes (steps : Nat) (within : steps + rest.length ≤ input.length)
      (passes : ∀ outer spare,
        skipOpened (steps + spare) first (bracket :: outer) input =
          skipOpened spare false outer rest)

theorem Closes.closed (here : skipBlanks input = bracket.closing :: rest) :
    Closes bracket first input rest := by
  have shorter := length_of_head here
  refine .takes 1 (by omega) fun outer spare => ?_
  rw [Nat.add_comm]
  exact skipOpened_closed here

theorem Closes.item {value between : List Char} (begins : Begins bracket.closing first input start)
    (keyed : skipKey bracket start = .ok value) (shorter : value.length ≤ start.length)
    (skips : Skips value between) (more : Closes bracket false between rest) :
    Closes bracket first input rest := by
  obtain ⟨fresh, inside, left, inner, less, within, head, tail⟩ := skips
  obtain ⟨steps, fits, passes⟩ := more
  have length := begins.length_le
  refine .takes (inner + steps + 1) (by omega) fun outer spare => ?_
  have counted : inner + steps + 1 + spare = inner + (steps + spare) + 1 := by omega
  rw [counted, skipOpened_begins begins, keyed, ok_bind, head, ok_bind]
  dsimp only
  rw [tail, passes]

end Brackets

section Walks

variable {item : Reader Json} {fuel : Nat} {first : Bool} {input rest : List Char}
  (each : ∀ start json after, item start = .ok (json, after) → Skips start after)

include each

theorem closes_of_elements {items : List Json}
    (elements : Elements item fuel first input items rest) :
    Closes .square first input rest := by
  induction elements with
  | closed here => exact .closed here
  | item begins read _ ih => exact .item begins rfl (Nat.le_refl _) (each _ _ _ read) ih

theorem closes_of_members {entries : List (String × Json)}
    (members : Members item fuel first input entries rest) : Closes .curly first input rest := by
  induction members with
  | closed here => exact .closed here
  | entry begins name colon read _ ih =>
      obtain ⟨keyed, shorter⟩ := skipKey_named name colon
      exact .item begins keyed (Nat.le_succ_of_le shorter) (each _ _ _ read) ih

end Walks

theorem Closes.skips {bracket : Bracket} {input more rest : List Char} {c : Char}
    (here : skipBlanks input = c :: more) (closes : Closes bracket true more rest)
    (opens : ∀ opened, skipHead opened (c :: more) = .ok (true, bracket :: opened, more)) :
    Skips input rest := by
  obtain ⟨steps, within, passes⟩ := closes
  refine .passes true [bracket] more steps (length_of_head here) within ?_ passes
  intro opened
  rw [skipHead_of_head here]
  exact opens opened

theorem skips_of_head {input more rest : List Char} {c : Char} (began : skipBlanks input = c :: more)
    (shorter : rest.length ≤ more.length)
    (head : ∀ opened, skipHead opened (c :: more) = .ok (false, opened, rest)) :
    Skips input rest := by
  refine .passes false [] rest 0 ?_ (by omega) ?_ ?_
  · exact Nat.lt_of_le_of_lt shorter (length_of_head began)
  · intro opened
    rw [skipHead_of_head began, head]
    rfl
  · intro opened spare
    rw [Nat.zero_add]
    rfl

theorem Scalar.skips {text input rest : List Char} {json : Json} (scalar : Scalar text json rest)
    (here : skipBlanks input = text) : Skips input rest := by
  cases scalar with
  | null word =>
      refine skips_of_head here (length_of_expectWord word) fun opened => ?_
      show (do return (false, opened, ← expectWord ['u', 'l', 'l'] _)) = _
      rw [word]
      rfl
  | yes word =>
      refine skips_of_head here (length_of_expectWord word) fun opened => ?_
      show (do return (false, opened, ← expectWord ['r', 'u', 'e'] _)) = _
      rw [word]
      rfl
  | no word =>
      refine skips_of_head here (length_of_expectWord word) fun opened => ?_
      show (do return (false, opened, ← expectWord ['a', 'l', 's', 'e'] _)) = _
      rw [word]
      rfl
  | negative read =>
      have skipped := skipNumeral_of_readNumeral read
      refine skips_of_head here (Nat.le_of_lt (length_of_readNumeral read)) fun opened => ?_
      show (do return (false, opened, ← skipNumeral _)) = _
      rw [skipped]
      rfl
  | number digit read =>
      have skipped := skipNumeral_of_readNumeral read
      have shorter := length_of_readNumeral read
      refine skips_of_head here (Nat.le_of_lt_succ shorter) fun opened => ?_
      rw [skipHead, skipBlanks_of_head here]
      split
      case h_1 none => cases none
      -- a digit is none of the other characters that a value begins with
      case h_9 same =>
        cases same
        rw [if_pos digit, skipped]
        rfl
      all_goals
        next same =>
          cases same
          exact absurd digit (by decide)
  | text read =>
      have skipped := skipString_of_readString read
      refine skips_of_head here (Nat.le_of_lt (length_of_skipChars skipped)) fun opened => ?_
      show (do return (false, opened, ← skipString _)) = _
      rw [skipped]
      rfl

theorem skips_of_parsed {inner : Option (Reader Json)} {input rest : List Char} {json : Json}
    (each : ∀ item ∈ inner, ∀ start json after, item start = .ok (json, after) → Skips start after)
    (parsed : Parsed inner (skipBlanks input) json rest) : Skips input rest := by
  generalize here : skipBlanks input = text at parsed
  cases parsed with
  | scalar scalar => exact scalar.skips here
  | array elements => exact (closes_of_elements (each _ rfl) elements).skips here fun _ => rfl
  | object members => exact (closes_of_members (each _ rfl) members).skips here fun _ => rfl

theorem skips_of_parseNested {depth : Nat} {input rest : List Char} {json : Json}
    (read : parseNested depth input = .ok (json, rest)) : Skips input rest := by
  induction depth generalizing input json rest with
  | zero =>
      refine skips_of_parsed ?_ (parsed_of_parseWith read)
      intro item none
      cases none
  | succ depth ih =>
      refine skips_of_parsed ?_ (parsed_of_parseWith read)
      rintro item ⟨⟩ start json after read
      exact ih read

end TurnObligations.Json
