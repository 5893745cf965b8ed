import TurnObligations.Proofs.Json.Scan
import TurnObligations.Proofs.Storage.Conforms
import TurnObligations.Storage.Text

/-!
Written data: how many brackets are open at once, how the text of a value begins, and how the scalars
read back from it.
-/

namespace TurnObligations

namespace Json

mutual

/-- How many brackets are open at once where the value is nested deepest. -/
def depth : Json → Nat
  | .array items => depthItems items + 1
  | .object entries => depthEntries entries + 1
  | _ => 0

def depthItems : List Json → Nat
  | [] => 0
  | item :: rest => max (depth item) (depthItems rest)

def depthEntries : List (String × Json) → Nat
  | [] => 0
  | (_, value) :: rest => max (depth value) (depthEntries rest)

end

theorem depth_le_depthItems {items : List Json} {item : Json} (member : item ∈ items) :
    item.depth ≤ depthItems items := by
  induction items with
  | nil => cases member
  | cons first rest ih =>
      rw [depthItems]
      rcases List.mem_cons.mp member with rfl | later
      · exact Nat.le_max_left ..
      · exact Nat.le_trans (ih later) (Nat.le_max_right ..)

theorem depth_le_depthEntries {entries : List (String × Json)} {entry : String × Json}
    (member : entry ∈ entries) : entry.2.depth ≤ depthEntries entries := by
  induction entries with
  | nil => cases member
  | cons first rest ih =>
      rw [depthEntries]
      rcases List.mem_cons.mp member with rfl | later
      · exact Nat.le_max_left ..
      · exact Nat.le_trans (ih later) (Nat.le_max_right ..)

theorem quote_append (text : String) (rest : List Char) :
    quote text ++ rest = '"' :: (text.toList.flatMap escape ++ '"' :: rest) := by
  simp [quote]

end Json

namespace Storage

open Json (Ends Reader isBlank skipBlanks skipBlanks_cons)

/-- What the first character of a written value cannot be. -/
structure Opens (c : Char) : Prop where
  solid : isBlank c = false
  notClosing : c ≠ ']'

theorem opens_of_isDigit {c : Char} (digit : c.isDigit = true) : Opens c := by
  refine ⟨?_, ?_⟩
  · rw [isBlank]
    simp only [Bool.or_eq_false_iff, beq_eq_false_iff_ne]
    refine ⟨⟨⟨?_, ?_⟩, ?_⟩, ?_⟩ <;>
      · rintro rfl
        cases digit
  · rintro rfl
    cases digit

theorem decimal_opens (value : Nat) :
    ∃ c tail, Nat.toDigits 10 value = c :: tail ∧ c.isDigit = true := by
  obtain ⟨c, tail, shape, _⟩ := Json.decimal_leading value
  have digits : ∀ digit ∈ Nat.toDigits 10 value, digit.isDigit = true := Json.isDigit_of_mem_decimal
  exact ⟨c, tail, shape, digits c (by simp [shape])⟩

theorem render_opens (datum : Datum) :
    ∃ c tail, datum.toJson.render = c :: tail ∧ Opens c ∧ (c = 'n' → datum.toJson = .null) := by
  have number (value : Nat) : ∃ c tail, (Json.integer value).render = c :: tail ∧ Opens c ∧
      (c = 'n' → Json.integer value = .null) := by
    obtain ⟨c, tail, shape, digit⟩ := decimal_opens value
    refine ⟨c, tail, shape, opens_of_isDigit digit, ?_⟩
    rintro rfl
    cases digit
  match datum with
  | .unit => exact ⟨'n', _, rfl, ⟨rfl, by decide⟩, fun _ => rfl⟩
  | .bool true => exact ⟨'t', _, rfl, ⟨rfl, by decide⟩, nofun⟩
  | .bool false => exact ⟨'f', _, rfl, ⟨rfl, by decide⟩, nofun⟩
  | .byte value => exact number value.toNat
  | .count value => exact number value.toNat
  | .index value => exact number value.toNat
  | .signed value =>
      match sign : value.toInt with
      | .ofNat natural =>
          rw [Datum.toJson, sign]
          exact number natural
      | .negSucc natural =>
          rw [Datum.toJson, sign]
          exact ⟨'-', _, rfl, ⟨rfl, by decide⟩, nofun⟩
  | .word text => exact ⟨'"', _, rfl, ⟨rfl, by decide⟩, nofun⟩
  | .absent => exact ⟨'n', _, rfl, ⟨rfl, by decide⟩, fun _ => rfl⟩
  | .present value => exact render_opens value
  | .list [] => exact ⟨'[', _, rfl, ⟨rfl, by decide⟩, nofun⟩
  | .list (_ :: _) => exact ⟨'[', _, rfl, ⟨rfl, by decide⟩, nofun⟩
  | .record [] => exact ⟨'\x7b', _, rfl, ⟨rfl, by decide⟩, nofun⟩
  | .record ((_, _) :: _) => exact ⟨'\x7b', _, rfl, ⟨rfl, by decide⟩, nofun⟩
  | .variant _ _ _ => exact ⟨'\x7b', _, rfl, ⟨rfl, by decide⟩, nofun⟩
  | .label _ _ => exact ⟨'"', _, rfl, ⟨rfl, by decide⟩, nofun⟩

/-! ### Scalars -/

theorem readNumber_decimal {shape : Shape} {datum : Datum} {value : Nat}
    (fits : value < UInt64.size) (means : ofInteger value shape = .ok datum) {rest : List Char}
    (ends : Ends rest) :
    readNumber shape (Nat.toDigits 10 value ++ rest) = .ok (datum, rest) := by
  have read := Json.readNumeral_decimal false fits ends
  rw [Json.integerNumeral_decimal fits] at read
  obtain ⟨c, tail, digits, digit⟩ := decimal_opens value
  rw [digits, List.cons_append] at read ⊢
  rw [readNumber, skipBlanks_cons (opens_of_isDigit digit).solid]
  split
  · next same =>
      cases same
      cases digit
  · next same =>
      cases same
      simp only [if_pos digit, read, ok_bind, ofNumeral, means]
      rfl
  · next impossible => cases impossible

theorem readNumber_negative {datum : Datum} {value : Nat} (positive : 0 < value)
    (fits : value ≤ UInt64.size / 2) (means : ofInteger (-value) .signed = .ok datum)
    {rest : List Char} (ends : Ends rest) :
    readNumber .signed ('-' :: (Nat.toDigits 10 value ++ rest)) = .ok (datum, rest) := by
  have small : value < UInt64.size := by
    simp only [UInt64.size] at fits ⊢
    omega
  have read := Json.readNumeral_decimal true small ends
  rw [Json.integerNumeral_negative positive fits] at read
  rw [readNumber, skipBlanks_cons rfl]
  simp only [read, ok_bind, ofNumeral, means]
  rfl

theorem readNumber_signed (value : Int64) {rest : List Char} (ends : Ends rest) :
    readNumber .signed ((Datum.signed value).toJson.render ++ rest) =
      .ok (.signed value, rest) := by
  have means := ofInteger_signed value
  have least := value.minValue_le_toInt
  have most := value.toInt_le
  cases sign : value.toInt with
  | ofNat natural =>
      rw [sign] at means most
      have fits : natural < UInt64.size := by
        have bound : (natural : Int) ≤ Int64.maxValue.toInt := most
        simp only [Int64.toInt_maxValue, UInt64.size] at bound ⊢
        omega
      rw [Datum.toJson, sign]
      exact readNumber_decimal fits means ends
  | negSucc natural =>
      rw [sign] at means least
      have fits : natural + 1 ≤ UInt64.size / 2 := by
        rw [Int64.toInt_minValue] at least
        simp only [UInt64.size]
        omega
      rw [Datum.toJson, sign]
      exact readNumber_negative (Nat.succ_pos natural) fits means ends

theorem readText_quote (text : String) (rest : List Char) :
    readText (Json.quote text ++ rest) = .ok (text, rest) := by
  rw [Json.quote_append, readText, skipBlanks_cons rfl]
  exact Json.readString_quoted text rest

end Storage

end TurnObligations
