import TurnObligations.Json.Render
import TurnObligations.Json.Scan
import TurnObligations.Proofs.Answer

/-!
Strings and whole numbers read back from their written form, whatever follows them in the text.
-/

namespace TurnObligations.Json

theorem skipBlanks_cons {c : Char} (solid : isBlank c = false) (rest : List Char) :
    skipBlanks (c :: rest) = c :: rest := by
  simp [skipBlanks, solid]

/-! ### Strings -/

theorem hexValue?_hexDigit (value : Nat) (bound : value < 16) :
    Text.hexValue? (Text.hexDigit value) = some value := by
  have each : ∀ value < 16, Text.hexValue? (Text.hexDigit value) = some value := by decide
  exact each value bound

theorem readEscape_control {c : Char} (control : c.toNat < 32) (rest : List Char) :
    readEscape ('u' :: '0' :: '0' :: Text.hexDigit (c.toNat / 16) ::
      Text.hexDigit (c.toNat % 16) :: rest) = .ok (c, rest) := by
  have zero : Text.hexValue? '0' = some 0 := rfl
  have high := hexValue?_hexDigit (c.toNat / 16) (by omega)
  have low := hexValue?_hexDigit (c.toNat % 16) (by omega)
  have whole : ((0 * 16 + 0) * 16 + c.toNat / 16) * 16 + c.toNat % 16 = c.toNat := by omega
  have notLow : ¬(0xDC00 ≤ c.toNat ∧ c.toNat ≤ 0xDFFF) := by omega
  have notHigh : ¬(0xD800 ≤ c.toNat ∧ c.toNat ≤ 0xDBFF) := by omega
  simp only [readEscape, readHex, zero, high, low, whole, ok_bind, Bool.and_eq_true,
    decide_eq_true_eq, if_neg notLow, if_neg notHigh, Char.ofNat_toNat]
  rfl

theorem readChars_escape {fuel : Nat} {c : Char} {more rest rest' : List Char}
    (later : readChars fuel rest = .ok (more, rest')) :
    readChars (fuel + 1) (escape c ++ rest) = .ok (c :: more, rest') := by
  have escaped (marks : List Char) (means : readEscape (marks ++ rest) = .ok (c, rest)) :
      readChars (fuel + 1) ('\\' :: marks ++ rest) = .ok (c :: more, rest') := by
    rw [List.cons_append, readChars, means, ok_bind]
    simp only [later, ok_bind]
    rfl
  rw [escape]
  split
  · next same => subst same; exact escaped ['"'] rfl
  split
  · next same => subst same; exact escaped ['\\'] rfl
  split
  · next same => subst same; exact escaped ['b'] rfl
  split
  · next same => subst same; exact escaped ['f'] rfl
  split
  · next same => subst same; exact escaped ['n'] rfl
  split
  · next same => subst same; exact escaped ['r'] rfl
  split
  · next same => subst same; exact escaped ['t'] rfl
  split
  · next control => exact escaped ('u' :: '0' :: '0' :: _ :: [_]) (readEscape_control control rest)
  · next notQuote notSlash _ _ _ _ _ printed =>
      simp only [List.cons_append, List.nil_append]
      rw [readChars, if_neg printed]
      · simp only [later, ok_bind]
        rfl
      · exact notQuote
      · exact notSlash

theorem readChars_escapes (chars rest : List Char) (fuel : Nat) (enough : chars.length ≤ fuel) :
    readChars fuel (chars.flatMap escape ++ '"' :: rest) = .ok (chars, rest) := by
  induction chars generalizing fuel with
  | nil =>
      cases fuel <;> rfl
  | cons c chars ih =>
      cases fuel with
      | zero => simp at enough
      | succ fuel =>
          rw [List.flatMap_cons, List.append_assoc]
          exact readChars_escape (ih fuel (by simpa using enough))

theorem length_le_flatMap_escape (chars : List Char) :
    chars.length ≤ (chars.flatMap escape).length := by
  induction chars with
  | nil => exact Nat.le_refl _
  | cons c chars ih =>
      have some : 1 ≤ (escape c).length := by
        rw [escape]
        repeat' split
        all_goals simp
      simp only [List.length_cons, List.flatMap_cons, List.length_append]
      omega

theorem readString_quoted (text : String) (rest : List Char) :
    readString (text.toList.flatMap escape ++ '"' :: rest) = .ok (text, rest) := by
  have long := length_le_flatMap_escape text.toList
  have enough : text.toList.length ≤ (text.toList.flatMap escape ++ '"' :: rest).length := by
    rw [List.length_append]
    omega
  have read := readChars_escapes text.toList rest _ enough
  simp only [readString, read, ok_bind, String.ofList_toList]
  rfl

/-! ### Whole numbers -/

/-- What may stand behind a value: the end, or what goes on or closes around it. -/
def Ends (rest : List Char) : Prop := ∀ c ∈ rest.head?, c = ',' ∨ c = ']' ∨ c = '\x7d'

theorem Ends.not_digit {rest : List Char} (ends : Ends rest) :
    ∀ c ∈ rest.head?, c.isDigit = false := by
  intro c member
  rcases ends c member with rfl | rfl | rfl <;> rfl

theorem spanDigits_append (digits : List Char) {rest : List Char} (all : ∀ c ∈ digits, c.isDigit = true)
    (ends : Ends rest) : spanDigits (digits ++ rest) = (digits, rest) := by
  induction digits with
  | nil =>
      cases rest with
      | nil => rfl
      | cons c rest => simp [spanDigits, ends.not_digit c rfl]
  | cons c digits ih =>
      have tail := ih fun other member => all other (by simp [member])
      simp only [spanDigits, Prod.mk.injEq] at tail
      simp [spanDigits, all c (by simp), tail]

theorem isDigit_of_mem_decimal {value : Nat} : ∀ c ∈ Nat.toDigits 10 value, c.isDigit = true :=
  fun _ member => Nat.isDigit_of_mem_toDigits (by decide) (by decide) member

theorem decimal_leading (value : Nat) :
    ∃ c tail, Nat.toDigits 10 value = c :: tail ∧ (c = '0' → tail = []) := by
  induction value using Nat.strongRecOn with
  | ind value ih =>
      by_cases small : value < 10
      · exact ⟨_, [], Nat.toDigits_of_lt_base small, fun _ => rfl⟩
      · have split := Nat.toDigits_of_base_le (b := 10) (n := value) (by decide) (by omega)
        obtain ⟨c, tail, shape, leading⟩ := ih (value / 10) (by omega)
        refine ⟨c, tail ++ [Nat.digitChar (value % 10)], by rw [split, shape, List.cons_append], ?_⟩
        intro zero
        have alone := leading zero
        rw [zero, alone] at shape
        have nothing : value / 10 = 0 := by
          have read : Nat.ofDigitChars 10 (Nat.toDigits 10 (value / 10)) 0 = value / 10 :=
            Nat.ofDigitChars_ten_toDigits
          rw [shape] at read
          exact read.symm
        omega

theorem readDigits_decimal (value : Nat) {rest : List Char} (ends : Ends rest) :
    readDigits (Nat.toDigits 10 value ++ rest) = .ok (Nat.toDigits 10 value, rest) := by
  have spanned := spanDigits_append (Nat.toDigits 10 value) isDigit_of_mem_decimal ends
  obtain ⟨c, tail, shape, leading⟩ := decimal_leading value
  rw [shape] at spanned ⊢
  rw [List.cons_append, readDigits]
  · rw [← List.cons_append, spanned]
    split
    · next impossible => cases impossible
    · next impossible =>
        simp only [Prod.mk.injEq, List.cons.injEq] at impossible
        obtain ⟨⟨zero, more⟩, _⟩ := impossible
        rw [leading zero] at more
        cases more
    · next same => cases same; rfl
  · nofun

theorem gatherDigits_eq (digits : List Char) {whole : Nat}
    (fits : Nat.ofDigitChars 10 digits whole < UInt64.size) :
    gatherDigits whole digits = (Nat.ofDigitChars 10 digits whole, 0) := by
  induction digits generalizing whole with
  | nil => rfl
  | cons digit digits ih =>
      have next : Nat.ofDigitChars 10 (digit :: digits) whole =
          Nat.ofDigitChars 10 digits (whole * 10 + (digit.toNat - 48)) := by
        rw [Nat.ofDigitChars_cons, Nat.mul_comm]
        rfl
      rw [next] at fits ⊢
      have grows : whole * 10 + (digit.toNat - 48) ≤
          Nat.ofDigitChars 10 digits (whole * 10 + (digit.toNat - 48)) := by
        rw [Nat.ofDigitChars_eq_ofDigitChars_zero]
        exact Nat.le_trans (Nat.le_mul_of_pos_left _ (Nat.pow_pos (by decide))) (Nat.le_add_right _ _)
      simp only [gatherDigits, if_pos (Nat.lt_of_le_of_lt grows fits)]
      exact ih fits

theorem roundToDouble_le (value : Nat) : roundToDouble value ≤ 2 * value := by
  have kept := Nat.div_mul_le_self value (1 <<< (value.log2 + 1 - 53))
  rw [roundToDouble]
  by_cases short : value.log2 + 1 - 53 = 0
  · simp only [short, bne_self_eq_false, Bool.and_false, Bool.false_eq_true, if_false] at kept ⊢
    omega
  · have unit : 1 <<< (value.log2 + 1 - 53) ≤ value := by
      rw [Nat.one_shiftLeft]
      have some : value ≠ 0 := by
        rintro rfl
        exact short rfl
      calc
        2 ^ (value.log2 + 1 - 53) ≤ 2 ^ value.log2 := Nat.pow_le_pow_right (by decide) (by omega)
        _ ≤ value := Nat.log2_self_le some
    have whole := Nat.succ_mul (value / 1 <<< (value.log2 + 1 - 53)) (1 <<< (value.log2 + 1 - 53))
    rw [Nat.succ_eq_add_one] at whole
    split
    · omega
    · omega

theorem exceedsDouble_zero {value : Nat} (fits : value < UInt64.size) :
    exceedsDouble value 0 = false := by
  have rounded := roundToDouble_le value
  have one : roundToDouble 1 = 1 := by decide
  have far : 2 * UInt64.size < doubleBound := by decide
  have small : ¬doubleBound ≤ roundToDouble value := by omega
  simp only [exceedsDouble, Int.toNat_zero, Nat.pow_eq, Nat.pow_zero, one, Nat.mul_one]
  simp [small]

theorem literalExceeds_decimal {value : Nat} (fits : value < UInt64.size) :
    literalExceeds (Nat.toDigits 10 value) [] false [] = false := by
  have read : Nat.ofDigitChars 10 (Nat.toDigits 10 value) 0 = value := Nat.ofDigitChars_ten_toDigits
  have gathered : gatherDigits 0 (Nat.toDigits 10 value) = (value, 0) := by
    rw [gatherDigits_eq _ (by rw [read]; exact fits), read]
  have close : ((0 : Nat) : Int) - ((([] : List Char).length - 0 : Nat) : Int) + ((0 : Nat) : Int) = 0 := rfl
  have bound : 0 < 1 <<< 31 := by decide
  simp only [literalExceeds, gathered, gatherDigits, Nat.ofDigitChars_nil, close, if_pos bound,
    Bool.false_eq_true, if_false, exceedsDouble_zero fits]

theorem readNumeral_decimal (negative : Bool) {value : Nat} (fits : value < UInt64.size)
    {rest : List Char} (ends : Ends rest) :
    readNumeral negative (Nat.toDigits 10 value ++ rest) =
      .ok (integerNumeral negative (Nat.toDigits 10 value), rest) := by
  rw [readNumeral, readDigits_decimal value ends, ok_bind]
  have within := literalExceeds_decimal fits
  cases rest with
  | nil => simp [readFraction, within, pure, Except.pure, bind, Except.bind]
  | cons c rest =>
      rcases ends c rfl with rfl | rfl | rfl
      · simp [readFraction, within, pure, Except.pure, bind, Except.bind, isExponentMark]
      · simp [readFraction, within, pure, Except.pure, bind, Except.bind, isExponentMark]
      · simp [readFraction, within, pure, Except.pure, bind, Except.bind, isExponentMark]

theorem integerNumeral_decimal {value : Nat} (fits : value < UInt64.size) :
    integerNumeral false (Nat.toDigits 10 value) = .integer value := by
  have read : Nat.ofDigitChars 10 (Nat.toDigits 10 value) 0 = value := Nat.ofDigitChars_ten_toDigits
  rw [integerNumeral, read]
  simp [fits]

theorem integerNumeral_negative {value : Nat} (positive : 0 < value)
    (fits : value ≤ UInt64.size / 2) :
    integerNumeral true (Nat.toDigits 10 value) = .integer (-value) := by
  have read : Nat.ofDigitChars 10 (Nat.toDigits 10 value) 0 = value := Nat.ofDigitChars_ten_toDigits
  rw [integerNumeral, read]
  simp [positive, fits]

end TurnObligations.Json
