import TurnObligations.Proofs.Storage.Lawful
import TurnObligations.Seat

/-!
Seats round a table: whose turn it is after so many turns, and what is kept for each seat.
-/

namespace TurnObligations

open Storage (FieldsConform)

namespace Seat

theorem index_lt (seat : Seat) : seat.index < UInt8.size := seat.id.toNat_lt

theorem eq_of_index {seat other : Seat} (same : seat.index = other.index) : seat = other :=
  congrArg Seat.mk (UInt8.toNat_inj.mp same)

def ofTurn (players turn : Nat) : Seat := ⟨UInt8.ofNat (turn % players)⟩

theorem index_ofTurn {players : Nat} (occupied : 0 < players) (few : players ≤ 255) (turn : Nat) :
    (ofTurn players turn).index = turn % players := by
  have within := Nat.mod_lt turn occupied
  exact UInt8.toNat_ofNat_of_lt' (Nat.lt_of_lt_of_le within (by simp only [UInt8.size]; omega))

theorem next_returns {players : Nat} (seat : Seat) (occupied : 0 < players) :
    ∃ next : Seat, seat.next players = .ok next ∧ next.index < players := by
  have seated : players ≠ 0 := by omega
  refine ⟨_, by rw [next, if_neg seated], ?_⟩
  -- a seat number is a byte, and what is cut off only makes it smaller
  calc
    (UInt8.ofNat ((seat.index + 1) % players)).toNat ≤ (seat.index + 1) % players := by
      rw [UInt8.toNat_ofNat']
      exact Nat.mod_le _ _
    _ < players := Nat.mod_lt _ occupied

theorem next_index_lt {players : Nat} {seat next : Seat}
    (follows : seat.next players = .ok next) : next.index < players := by
  have occupied : 0 < players := by
    rw [Seat.next] at follows
    split at follows
    · cases follows
    · next seated => omega
  obtain ⟨next', follows', within⟩ := seat.next_returns occupied
  exact Except.ok.inj (follows'.symm.trans follows) ▸ within

/-- The seats that the turn gets to, out of those of a table. -/
def reached (players : Nat) : Nat := min players UInt8.size

theorem index_lt_reached {seat : Seat} {players : Nat} (seated : seat.index < players) :
    seat.index < reached players := Nat.lt_min.mpr ⟨seated, seat.index_lt⟩

theorem next_index {players : Nat} {seat next : Seat} (seated : seat.index < players)
    (follows : seat.next players = .ok next) :
    next.index = (seat.index + 1) % reached players := by
  have byte := seat.index_lt
  rw [Seat.next, if_neg (by omega)] at follows
  cases follows
  show (UInt8.ofNat ((seat.index + 1) % players)).toNat = _
  rw [UInt8.toNat_ofNat', reached]
  rcases Nat.le_total players UInt8.size with few | many
  · rw [Nat.min_eq_left few]
    exact Nat.mod_eq_of_lt (Nat.lt_of_lt_of_le (Nat.mod_lt _ (by omega)) few)
  · -- one past the last byte is still a seat of the table, and is cut off to the first
    rw [Nat.min_eq_right many]
    rcases Nat.lt_or_ge (seat.index + 1) players with within | last
    · rw [Nat.mod_eq_of_lt within]
    · have full : seat.index + 1 = players := by omega
      have byte : players = UInt8.size := by omega
      rw [full, byte, Nat.mod_self]

theorem next_ofTurn {players : Nat} (occupied : 0 < players) (few : players ≤ 255) (turn : Nat) :
    (ofTurn players turn).next players = .ok (ofTurn players (turn + 1)) := by
  have seated : players ≠ 0 := by omega
  rw [next, if_neg seated, index_ofTurn occupied few, Nat.mod_add_mod]
  rfl

instance : LawfulStorable Seat where
  conforms _ _ := .byte
  rebuilds _ := rfl

end Seat

namespace SeatMap

variable {α : Type}

theorem seatsOf_eq_ok {players : Nat} {seats : List Seat} (seated : seatsOf players = .ok seats) :
    (0 < players ∧ players ≤ 255) ∧ seats.length = players := by
  obtain ⟨occupied, rest⟩ := bind_unit_eq_ok.mp seated
  obtain ⟨few, result⟩ := bind_unit_eq_ok.mp rest
  cases result
  simp only [require_eq_ok_iff, decide_eq_true_eq] at occupied few
  exact ⟨⟨occupied, few⟩, by simp⟩

theorem length_of_mapM {β : Type} {items : List β} {entry : β → Except Fault α} {values : List α}
    (made : items.mapM entry = .ok values) : values.length = items.length := by
  induction items generalizing values with
  | nil =>
      cases made
      rfl
  | cons item rest ih =>
      rw [List.mapM_cons] at made
      obtain ⟨value, _, made⟩ := bind_eq_ok.mp made
      obtain ⟨others, more, result⟩ := bind_eq_ok.mp made
      cases result
      simp [ih more]

theorem build_eq_ok {players : Nat} {entry : Seat → Except Fault α} {map : SeatMap α}
    (built : build players entry = .ok map) :
    (0 < players ∧ players ≤ 255) ∧ map.count = players := by
  obtain ⟨seats, seated, rest⟩ := bind_eq_ok.mp built
  obtain ⟨values, made, result⟩ := bind_eq_ok.mp rest
  cases result
  obtain ⟨bounds, length⟩ := seatsOf_eq_ok seated
  exact ⟨bounds, (length_of_mapM made).trans length⟩

theorem mem_of_mapM {β : Type} {items : List β} {entry : β → Except Fault α} {values : List α}
    (made : items.mapM entry = .ok values) : ∀ value ∈ values, ∃ item, entry item = .ok value := by
  induction items generalizing values with
  | nil =>
      cases made
      nofun
  | cons item rest ih =>
      rw [List.mapM_cons] at made
      obtain ⟨first, here, made⟩ := bind_eq_ok.mp made
      obtain ⟨others, more, result⟩ := bind_eq_ok.mp made
      cases result
      intro value member
      rcases List.mem_cons.mp member with rfl | later
      · exact ⟨item, here⟩
      · exact ih more value later

theorem mem_of_build {players : Nat} {entry : Seat → Except Fault α} {map : SeatMap α}
    (built : build players entry = .ok map) :
    ∀ value ∈ map.seats, ∃ seat, entry seat = .ok value := by
  obtain ⟨seats, _, rest⟩ := bind_eq_ok.mp built
  obtain ⟨values, made, result⟩ := bind_eq_ok.mp rest
  cases result
  exact mem_of_mapM made

@[simp] theorem count_set (map : SeatMap α) (seat : Seat) (value : α) :
    (map.set seat value).count = map.count := by
  simp [count, set]

theorem get_eq_ok_iff {map : SeatMap α} {seat : Seat} {value : α} :
    map.get seat = .ok value ↔ map.seats[seat.index]? = some value := fetch_eq_ok_iff

theorem mem_of_get {map : SeatMap α} {seat : Seat} {value : α} (here : map.get seat = .ok value) :
    value ∈ map.seats := List.mem_of_getElem? (get_eq_ok_iff.mp here)

theorem get_returns {map : SeatMap α} {seat : Seat} (seated : seat.index < map.count) :
    ∃ value, map.get seat = .ok value :=
  ⟨_, get_eq_ok_iff.mpr (List.getElem?_eq_getElem seated)⟩

theorem get_set {map : SeatMap α} {seat : Seat} {value old : α} (here : map.get seat = .ok old) :
    (map.set seat value).get seat = .ok value := by
  obtain ⟨seated, _⟩ := List.getElem?_eq_some_iff.mp (get_eq_ok_iff.mp here)
  rw [get_eq_ok_iff, set, List.getElem?_set_self seated]

theorem get_set_of_ne {map : SeatMap α} {seat other : Seat} {value : α} (apart : other ≠ seat) :
    (map.set seat value).get other = map.get other := by
  have elsewhere : seat.index ≠ other.index := fun same => apart (Seat.eq_of_index same.symm)
  simp only [get, fetch, set, List.getElem?_set_ne elsewhere, List.length_set]

theorem mem_set {map : SeatMap α} {seat : Seat} {value other : α}
    (member : other ∈ (map.set seat value).seats) : other ∈ map.seats ∨ other = value :=
  List.mem_or_eq_of_mem_set member

instance [Storable α] [LawfulStorable α] : LawfulStorable (SeatMap α) where
  conforms scope map :=
    FieldsConform.record (.cons (LawfulStorable.conforms scope map.seats) .nil) (by simp)
  rebuilds map := by
    show (Storable.ofDatum? (Storable.toDatum map.seats)).map SeatMap.mk = some map
    rw [LawfulStorable.rebuilds]
    rfl

end SeatMap

end TurnObligations
