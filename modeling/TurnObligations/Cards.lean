/-!
Taking one card out of a hand by its value.
-/

namespace TurnObligations.Cards

/-- The lowest card and the others; of equal cards the first goes. -/
def takeLowest? (cards : List UInt8) : Option (UInt8 × List UInt8) :=
  cards.min?.map fun card => (card, cards.erase card)

/-- The highest card and the others; of equal cards the last goes. -/
def takeHighest? (cards : List UInt8) : Option (UInt8 × List UInt8) :=
  cards.max?.map fun card => (card, (cards.reverse.erase card).reverse)

theorem takeLowest?_eq_none {cards : List UInt8} (none : takeLowest? cards = none) : cards = [] := by
  simpa [takeLowest?] using none

theorem takeLowest?_returns {cards : List UInt8} (held : cards ≠ []) :
    ∃ card rest, takeLowest? cards = some (card, rest) := by
  cases taken : takeLowest? cards with
  | none => exact absurd (takeLowest?_eq_none taken) held
  | some both => exact ⟨both.1, both.2, rfl⟩

theorem takeLowest?_perm {cards rest : List UInt8} {card : UInt8}
    (taken : takeLowest? cards = some (card, rest)) : List.Perm cards (card :: rest) := by
  simp only [takeLowest?, Option.map_eq_some_iff] at taken
  obtain ⟨lowest, least, equal⟩ := taken
  cases equal
  exact List.perm_cons_erase (List.min?_mem least)

theorem takeLowest?_le {cards rest : List UInt8} {card : UInt8}
    (taken : takeLowest? cards = some (card, rest)) : ∀ other ∈ cards, card ≤ other := by
  simp only [takeLowest?, Option.map_eq_some_iff] at taken
  obtain ⟨lowest, least, equal⟩ := taken
  cases equal
  exact (List.min?_eq_some_iff.mp least).2

instance maxEqOr : Std.MaxEqOr UInt8 where
  max_eq_or left right := by
    change (if left ≤ right then right else left) = left ∨
      (if left ≤ right then right else left) = right
    split <;> simp

theorem takeHighest?_eq_none {cards : List UInt8} (none : takeHighest? cards = none) :
    cards = [] := by
  simpa [takeHighest?] using none

theorem takeHighest?_perm {cards rest : List UInt8} {card : UInt8}
    (taken : takeHighest? cards = some (card, rest)) : List.Perm cards (card :: rest) := by
  simp only [takeHighest?, Option.map_eq_some_iff] at taken
  obtain ⟨highest, greatest, equal⟩ := taken
  cases equal
  have found : card ∈ cards.reverse := List.mem_reverse.mpr (List.max?_mem greatest)
  exact (List.reverse_perm cards).symm.trans
    ((List.perm_cons_erase found).trans (.cons _ (List.reverse_perm _).symm))

end TurnObligations.Cards
