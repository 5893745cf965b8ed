import TurnObligations.Json.Scan
import TurnObligations.Proofs.Answer

/-!
Words, strings and numbers that can be read can be passed over, and use up what they consist of.
-/

namespace TurnObligations.Json

theorem length_of_expectWord {word input rest : List Char}
    (found : expectWord word input = .ok rest) : rest.length ≤ input.length := by
  induction word generalizing input with
  | nil =>
      cases found
      exact Nat.le_refl _
  | cons c word ih =>
      cases input with
      | nil => cases found
      | cons d input =>
          rw [expectWord] at found
          split at found
          · exact Nat.le_succ_of_le (ih found)
          · cases found

/-! ### Strings -/

theorem readHex_eq_ok {input rest : List Char} {unit : Nat}
    (read : readHex input = .ok (unit, rest)) : ∃ a b c d, input = a :: b :: c :: d :: rest := by
  rw [readHex.eq_def] at read
  split at read
  · next a b c d after =>
      split at read
      · cases read
        exact ⟨a, b, c, d, rfl⟩
      · cases read
  · split at read <;> cases read

theorem skipEscape_unit {input rest : List Char} {unit : Nat}
    (read : readHex input = .ok (unit, rest)) : skipEscape ('u' :: input) = .ok rest := by
  rw [skipEscape, read]
  rfl

theorem skipChars_escape {input rest : List Char} {room : Nat} (skipped : skipEscape input = .ok rest) :
    skipChars (room + 1) ('\\' :: input) = skipChars room rest := by
  rw [skipChars, skipped, ok_bind]

theorem readEscape_cases {input rest : List Char} {c : Char}
    (read : readEscape input = .ok (c, rest)) :
    (rest.length < input.length ∧ skipEscape input = .ok rest) ∨
      ∃ second, second.length + 1 < input.length ∧ rest.length < second.length ∧
        skipEscape input = .ok ('\\' :: second) ∧ skipEscape second = .ok rest := by
  rw [readEscape.eq_def] at read
  split at read
  · cases read
  · next behind =>
      obtain ⟨⟨unit, after⟩, hex, answered⟩ := bind_eq_ok.mp read
      have passed := skipEscape_unit hex
      obtain ⟨a, b, c, d, rfl⟩ := readHex_eq_ok hex
      dsimp only at answered
      split at answered
      · cases answered
      split at answered
      · rw [readLowSurrogate.eq_def] at answered
        split at answered
        · cases answered
        · cases answered
        · next second =>
          obtain ⟨⟨low, last⟩, hexLow, paired⟩ := bind_eq_ok.mp answered
          dsimp only at paired
          split at paired
          · obtain rfl := (Prod.mk.inj (Except.ok.inj paired)).2
            refine .inr ⟨_, ?_, ?_, passed, skipEscape_unit hexLow⟩
            · simp only [List.length_cons]
              omega
            · obtain ⟨a, b, c, d, rfl⟩ := readHex_eq_ok hexLow
              simp only [List.length_cons]
              omega
          · cases paired
        · cases answered
      · cases answered
        refine .inl ⟨?_, passed⟩
        simp only [List.length_cons]
        omega
  · next mark behind notUnit =>
      split at read
      · next meant known =>
          cases read
          refine .inl ⟨Nat.lt_succ_self _, ?_⟩
          rw [skipEscape, known]
          · rfl
          · exact notUnit
      · cases read

theorem skipChars_of_readChars {fuel : Nat} {input chars rest : List Char} {room : Nat}
    (read : readChars fuel input = .ok (chars, rest)) (enough : input.length ≤ room) :
    skipChars room input = .ok rest := by
  induction fuel, input using readChars.induct generalizing chars room with
  | case1 =>
      rw [readChars] at read
      cases read
  | case2 fuel behind =>
      rw [readChars] at read
      cases read
      rw [skipChars]
  | case3 input notEnd notQuote =>
      rw [readChars] at read
      · cases read
      · exact notEnd
      · exact notQuote
  | case4 fuel behind ih =>
      rw [readChars] at read
      obtain ⟨⟨c, after⟩, escaped, read⟩ := bind_eq_ok.mp read
      obtain ⟨⟨more, last⟩, later, result⟩ := bind_eq_ok.mp read
      cases result
      cases room with
      | zero => cases enough
      | succ room =>
          have enough : behind.length ≤ room := Nat.le_of_succ_le_succ enough
          rcases readEscape_cases escaped with
            ⟨shorter, passed⟩ | ⟨second, within, shorter, passed, again⟩
          · rw [skipChars_escape passed]
            exact ih after later (by omega)
          · obtain ⟨room, rfl⟩ := Nat.exists_eq_add_of_lt (Nat.lt_of_lt_of_le within enough)
            rw [skipChars_escape passed, skipChars_escape again]
            exact ih after later (by omega)
  | case5 fuel c behind notQuote notSlash control =>
      rw [readChars, if_pos control] at read
      · cases read
      · exact notQuote
      · exact notSlash
  | case6 fuel c behind notQuote notSlash printed ih =>
      rw [readChars, if_neg printed] at read
      · obtain ⟨⟨more, last⟩, later, result⟩ := bind_eq_ok.mp read
        cases result
        cases room with
        | zero => cases enough
        | succ room =>
            rw [skipChars, if_neg printed]
            · exact ih later (Nat.le_of_succ_le_succ enough)
            · exact notQuote
            · exact notSlash
      · exact notQuote
      · exact notSlash

theorem length_of_skipEscape {input rest : List Char} (skipped : skipEscape input = .ok rest) :
    rest.length < input.length := by
  rw [skipEscape.eq_def] at skipped
  split at skipped
  · cases skipped
  · obtain ⟨⟨unit, after⟩, hex, result⟩ := bind_eq_ok.mp skipped
    cases result
    obtain ⟨a, b, c, d, rfl⟩ := readHex_eq_ok hex
    simp only [List.length_cons]
    omega
  · split at skipped
    · cases skipped
      exact Nat.lt_succ_self _
    · cases skipped

theorem length_of_skipChars {room : Nat} {input rest : List Char}
    (skipped : skipChars room input = .ok rest) : rest.length < input.length := by
  induction room, input using skipChars.induct with
  | case1 =>
      rw [skipChars] at skipped
      cases skipped
  | case2 room behind =>
      rw [skipChars] at skipped
      cases skipped
      exact Nat.lt_succ_self _
  | case3 input notEnd notQuote =>
      rw [skipChars] at skipped
      · cases skipped
      · exact notEnd
      · exact notQuote
  | case4 room behind ih =>
      rw [skipChars] at skipped
      obtain ⟨after, escaped, skipped⟩ := bind_eq_ok.mp skipped
      have shorter := length_of_skipEscape escaped
      have within := ih after skipped
      rw [List.length_cons]
      omega
  | case5 room c behind notQuote notSlash control =>
      rw [skipChars, if_pos control] at skipped
      · cases skipped
      · exact notQuote
      · exact notSlash
  | case6 room c behind notQuote notSlash printed ih =>
      rw [skipChars, if_neg printed] at skipped
      · exact Nat.lt_succ_of_lt (ih skipped)
      · exact notQuote
      · exact notSlash

theorem skipString_of_readString {input rest : List Char} {text : String}
    (read : readString input = .ok (text, rest)) : skipString input = .ok rest := by
  obtain ⟨⟨chars, after⟩, read, result⟩ := bind_eq_ok.mp read
  cases result
  exact skipChars_of_readChars read (Nat.le_refl _)

/-! ### Numbers -/

theorem readDigits_cases {input digits rest : List Char}
    (read : readDigits input = .ok (digits, rest)) :
    spanDigits input = (digits, rest) ∧ digits ≠ [] ∧
      ∀ first more, digits ≠ '0' :: first :: more := by
  rw [readDigits.eq_def] at read
  split at read
  · cases read
  · split at read
    · cases read
    · cases read
    · next _ someDigits plain spanned =>
        cases read
        exact ⟨spanned, someDigits, plain⟩

def readPlaces (input : List Char) : Except ReadError (List Char × List Char) :=
  match input with
  | '.' :: rest =>
      match spanDigits rest with
      | ([], []) => .error .truncated
      | ([], _ :: _) => .error .malformed
      | spanned => .ok spanned
  | _ => .ok ([], input)

def readPower (input : List Char) : Except ReadError ((Bool × List Char × List Char) × List Char) :=
  match input with
  | mark :: rest =>
      if isExponentMark mark then do
        let ((negative, power, written), rest) ← readExponent rest
        return ((negative, power, mark :: written), rest)
      else .ok ((false, [], []), input)
  | [] => .ok ((false, [], []), [])

def literal (negative : Bool) (digits places : List Char) :
    (Bool × List Char × List Char) × List Char → Except ReadError (Numeral × List Char)
  | ((negativeExponent, power, exponent), rest) =>
      if places.isEmpty && exponent.isEmpty && !literalExceeds digits [] false [] then
        .ok (integerNumeral negative digits, rest)
      else if literalExceeds digits places negativeExponent power then .error .malformed
      else
        let sign := if negative then ['-'] else []
        let point := if places.isEmpty then [] else '.' :: places
        .ok (.fraction (sign ++ digits ++ point ++ exponent), rest)

theorem readFraction_eq (negative : Bool) (digits input : List Char) :
    readFraction negative digits input = (do
      let (places, after) ← readPlaces input
      literal negative digits places (← readPower after)) := by
  have raised (places after : List Char) : (match after with
      | mark :: rest =>
          if isExponentMark mark then do
            let ((negativeExponent, power, written), rest) ← readExponent rest
            literal negative digits places ((negativeExponent, power, mark :: written), rest)
          else literal negative digits places ((false, [], []), after)
      | [] => literal negative digits places ((false, [], []), [])) =
      readPower after >>= literal negative digits places := by
    cases after with
    | nil => rfl
    | cons mark rest =>
        dsimp only [readPower]
        split
        · cases readExponent rest <;> rfl
        · rfl
  by_cases pointed : ∃ rest, input = '.' :: rest
  · obtain ⟨rest, rfl⟩ := pointed
    rw [readFraction, readPlaces]
    rcases spanDigits rest with ⟨_ | ⟨place, places⟩, after⟩
    · cases after <;> rfl
    · exact raised (place :: places) after
  · have plain : ∀ rest, input = '.' :: rest → False := fun rest same => pointed ⟨rest, same⟩
    rw [readFraction, readPlaces]
    · exact raised [] input
    · exact plain
    · exact plain

theorem literal_rest {negative : Bool} {digits places rest after : List Char} {numeral : Numeral}
    {power : Bool × List Char × List Char}
    (made : literal negative digits places (power, after) = .ok (numeral, rest)) : after = rest := by
  rw [literal] at made
  split at made
  · exact (Prod.mk.inj (Except.ok.inj made)).2
  · split at made
    · cases made
    · exact (Prod.mk.inj (Except.ok.inj made)).2

def skipPower (input : List Char) : Except ReadError (List Char) :=
  match input with
  | mark :: rest =>
      if isExponentMark mark then
        match readExponent rest with
        | .ok (_, rest) => .ok rest
        | .error _ => .error .malformed
      else .ok input
  | [] => .ok []

theorem skipPower_of_readPower {input rest : List Char} {power : Bool × List Char × List Char}
    (read : readPower input = .ok (power, rest)) : skipPower input = .ok rest := by
  cases input with
  | nil =>
      cases read
      rfl
  | cons mark more =>
      dsimp only [readPower, skipPower] at read ⊢
      split at read
      · next marked =>
          obtain ⟨⟨parts, left⟩, found, result⟩ := bind_eq_ok.mp read
          cases result
          rw [if_pos marked, found]
      · next unmarked =>
          cases read
          rw [if_neg unmarked]

theorem readNumeral_cases {negative : Bool} {input rest : List Char} {numeral : Numeral}
    (read : readNumeral negative input = .ok (numeral, rest)) :
    ∃ digits behind places after power, readDigits input = .ok (digits, behind) ∧
      readPlaces behind = .ok (places, after) ∧ readPower after = .ok (power, rest) := by
  obtain ⟨⟨digits, behind⟩, whole, fraction⟩ := bind_eq_ok.mp read
  have fraction : readFraction negative digits behind = .ok (numeral, rest) := fraction
  rw [readFraction_eq] at fraction
  obtain ⟨⟨places, after⟩, point, raised⟩ := bind_eq_ok.mp fraction
  obtain ⟨⟨power, left⟩, exponent, made⟩ := bind_eq_ok.mp raised
  obtain rfl := literal_rest made
  exact ⟨digits, behind, places, after, power, whole, point, exponent⟩

theorem skipNumeral_of_readNumeral {negative : Bool} {input rest : List Char} {numeral : Numeral}
    (read : readNumeral negative input = .ok (numeral, rest)) : skipNumeral input = .ok rest := by
  obtain ⟨digits, behind, places, after, power, whole, point, exponent⟩ := readNumeral_cases read
  have ended := skipPower_of_readPower exponent
  obtain ⟨spanned, someDigits, plain⟩ := readDigits_cases whole
  rw [skipNumeral, spanned]
  split
  · next same => exact absurd (Prod.mk.inj same).1 someDigits
  · next same => exact absurd (Prod.mk.inj same).1 (plain _ _)
  · next same =>
      obtain ⟨rfl, rfl⟩ := Prod.mk.inj same
      rw [ok_bind]
      by_cases pointed : ∃ more, behind = '.' :: more
      · obtain ⟨more, rfl⟩ := pointed
        rw [readPlaces] at point
        dsimp only
        split at point
        · cases point
        · cases point
        · next notEnd notEmpty =>
            have decimals : spanDigits more = (places, after) := Except.ok.inj point
            split
            · next same =>
                cases same
                rw [decimals]
                cases places with
                | nil =>
                    cases after with
                    | nil => exact absurd decimals notEnd
                    | cons first others => exact absurd decimals (notEmpty first others)
                | cons place others => exact ended
            · next plain => exact absurd rfl (plain more)
      · have plain : ∀ more, behind = '.' :: more → False := fun more same => pointed ⟨more, same⟩
        rw [readPlaces] at point
        · cases point
          dsimp only
          split
          · exact (plain _ rfl).elim
          · exact ended
        · exact plain

theorem length_of_spanDigits {input digits rest : List Char}
    (spanned : spanDigits input = (digits, rest)) : digits.length + rest.length = input.length := by
  obtain ⟨rfl, rfl⟩ := Prod.mk.inj spanned
  rw [← List.length_append, List.takeWhile_append_dropWhile]

theorem length_of_readPlaces {input places rest : List Char}
    (read : readPlaces input = .ok (places, rest)) : rest.length ≤ input.length := by
  rw [readPlaces.eq_def] at read
  split at read
  · split at read
    · cases read
    · cases read
    · have spanned := length_of_spanDigits (Except.ok.inj read)
      rw [List.length_cons]
      omega
  · cases read
    exact Nat.le_refl _

theorem length_of_readExponent {input rest : List Char} {parts : Bool × List Char × List Char}
    (read : readExponent input = .ok (parts, rest)) : rest.length ≤ input.length := by
  rw [readExponent.eq_def] at read
  split at read
  next sign unsigned signed =>
  have within : unsigned.length ≤ input.length := by
    split at signed
    all_goals
      obtain ⟨rfl, rfl⟩ := Prod.mk.inj signed
      simp
  split at read
  · cases read
  · cases read
  · next digits left _ spanned =>
      cases read
      have length := length_of_spanDigits spanned
      omega

theorem length_of_readPower {input rest : List Char} {power : Bool × List Char × List Char}
    (read : readPower input = .ok (power, rest)) : rest.length ≤ input.length := by
  cases input with
  | nil =>
      cases read
      exact Nat.le_refl _
  | cons mark more =>
      dsimp only [readPower] at read
      split at read
      · obtain ⟨⟨parts, left⟩, found, result⟩ := bind_eq_ok.mp read
        cases result
        exact Nat.le_succ_of_le (length_of_readExponent found)
      · cases read
        exact Nat.le_refl _

theorem length_of_readNumeral {negative : Bool} {input rest : List Char} {numeral : Numeral}
    (read : readNumeral negative input = .ok (numeral, rest)) : rest.length < input.length := by
  obtain ⟨digits, behind, places, after, power, whole, point, exponent⟩ := readNumeral_cases read
  obtain ⟨spanned, someDigits, _⟩ := readDigits_cases whole
  have read := length_of_spanDigits spanned
  have shorter := List.length_pos_iff.mpr someDigits
  have within := length_of_readPlaces point
  have inner := length_of_readPower exponent
  omega

end TurnObligations.Json
