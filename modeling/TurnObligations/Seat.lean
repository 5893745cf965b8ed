import TurnObligations.Counter
import TurnObligations.Storage.Datum

/-!
Seats in turn order, and one value per seat.
-/

namespace TurnObligations

structure Seat where
  id : UInt8
deriving DecidableEq, Repr

namespace Seat

def index (seat : Seat) : Nat := seat.id.toNat

def next (seat : Seat) (players : Nat) : Except Fault Seat :=
  if players = 0 then .error .zeroDivisor
  else .ok ⟨UInt8.ofNat ((seat.index + 1) % players)⟩

def describe (seat : Seat) : String := s!"Player {seat.index}"

instance : Storable Seat where
  shape := .byte
  toDatum seat := .byte seat.id
  ofDatum?
    | .byte id => some ⟨id⟩
    | _ => none

end Seat

structure SeatMap (α : Type) where
  seats : List α
deriving DecidableEq

namespace SeatMap

variable {α : Type}

def seatsOf (players : Nat) : Except Fault (List Seat) := do
  require (0 < players) .someSeat
  require (players ≤ 255) .fewSeats
  return (List.range players).map fun index => ⟨UInt8.ofNat index⟩

def build (players : Nat) (entry : Seat → Except Fault α) : Except Fault (SeatMap α) := do
  return ⟨← (← seatsOf players).mapM entry⟩

def count (map : SeatMap α) : Nat := map.seats.length

def get (map : SeatMap α) (seat : Seat) : Except Fault α := fetch map.seats seat.index

def set (map : SeatMap α) (seat : Seat) (value : α) : SeatMap α :=
  ⟨map.seats.set seat.index value⟩

/-- Every value with its seat; seats beyond the last one start again from the first. -/
def entries (map : SeatMap α) : List (Seat × α) :=
  map.seats.mapIdx fun index value => (⟨UInt8.ofNat index⟩, value)

instance [Storable α] : Storable (SeatMap α) where
  shape := .record "PlayerMap" [("seats", Storable.shape (List α))]
  toDatum map := .record [("seats", Storable.toDatum map.seats)]
  ofDatum?
    | .record [(_, seats)] => (Storable.ofDatum? seats).map .mk
    | _ => none

end SeatMap

end TurnObligations
