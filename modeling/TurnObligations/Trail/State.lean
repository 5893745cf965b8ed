import TurnObligations.Counter
import TurnObligations.Obligation.Build
import TurnObligations.Seat
import TurnObligations.Stack.Storage
import TurnObligations.Storage.Datum

/-!
The cattle trail: what herders do and where, what each place asks of them, and the state of a game.
-/

namespace TurnObligations.Trail

inductive Action where
  | move
  | drawCard
  | discardCard
  | gain2Dollars
  | buyCattle
  | payToll
deriving DecidableEq, Repr

namespace Action

def all : List Action := [.move, .drawCard, .discardCard, .gain2Dollars, .buyCattle, .payToll]

def name : Action → String
  | .move => "Move"
  | .drawCard => "DrawCard"
  | .discardCard => "DiscardCard"
  | .gain2Dollars => "Gain2Dollars"
  | .buyCattle => "BuyCattle"
  | .payToll => "PayToll"

def ofName? (text : String) : Option Action := all.find? fun action => action.name == text

instance : NamedAction Action where
  name := name
  ofName? := ofName?
  ofName?_name action := by cases action <;> rfl

end Action

inductive Location where
  | crossing
  | ranch
  | hazard
  | station
deriving DecidableEq, Repr

namespace Location

def all : List Location := [.crossing, .ranch, .hazard, .station]

def name : Location → String
  | .crossing => "Crossing"
  | .ranch => "Ranch"
  | .hazard => "Hazard"
  | .station => "Station"

def position : Location → UInt32
  | .crossing => 0
  | .ranch => 1
  | .hazard => 2
  | .station => 3

instance : Storable Location where
  shape := .labels (all.map name)
  toDatum location := .label location.position location.name
  ofDatum?
    | .label position _ => all[position.toNat]?
    | _ => none

open Obligation in
/-- What a herder owes on arrival, first to last: draw up to two cards and discard one for each, or
ride on; buy up to two cattle or take two dollars; pay the toll; discard one to three cards. -/
def obligations : Location → List (Obligation Action)
  | .crossing =>
      [freshAny [freshWhenThen (mandatory .drawCard) (mandatory .discardCard) 0 2,
        optional .move]]
  | .ranch =>
      [freshAny [.choice [freshRepeat 0 2 (mandatory .buyCattle), mandatory .gain2Dollars]]]
  | .hazard => [mandatory .payToll]
  | .station => [freshAny [freshRepeat 1 3 (mandatory .discardCard)]]

def standardTrail : List Location := [.crossing, .ranch, .hazard, .station]

end Location

/-! ### The state and how it is stored -/

structure Herder where
  /-- Index into the trail; none before the first move. -/
  position : Option UInt64
  dollars : UInt32
  hand : List UInt8
  deck : List UInt8
  discard : List UInt8
deriving DecidableEq

structure State where
  trail : List Location
  herders : SeatMap Herder
  current : Seat
  turn : UInt32
  stack : Stack Action
deriving DecidableEq

instance : Storable Herder where
  shape := .record "Herder"
    [("position", Storable.shape (Option UInt64)), ("dollars", .count),
      ("hand", Storable.shape (List UInt8)), ("deck", Storable.shape (List UInt8)),
      ("discard", Storable.shape (List UInt8))]
  toDatum herder := .record
    [("position", Storable.toDatum herder.position), ("dollars", .count herder.dollars),
      ("hand", Storable.toDatum herder.hand), ("deck", Storable.toDatum herder.deck),
      ("discard", Storable.toDatum herder.discard)]
  ofDatum?
    | .record [(_, position), (_, .count dollars), (_, hand), (_, deck), (_, discard)] => do
        return ⟨← Storable.ofDatum? position, dollars, ← Storable.ofDatum? hand,
          ← Storable.ofDatum? deck, ← Storable.ofDatum? discard⟩
    | _ => none

instance : Storable State where
  shape := .record "TrailState"
    [("trail", Storable.shape (List Location)), ("herders", Storable.shape (SeatMap Herder)),
      ("current", Storable.shape Seat), ("turn", .count),
      ("stack", Storable.shape (Stack Action))]
  toDatum state := .record
    [("trail", Storable.toDatum state.trail), ("herders", Storable.toDatum state.herders),
      ("current", Storable.toDatum state.current), ("turn", .count state.turn),
      ("stack", Storable.toDatum state.stack)]
  ofDatum?
    | .record [(_, trail), (_, herders), (_, current), (_, .count turn), (_, stack)] => do
        return ⟨← Storable.ofDatum? trail, ← Storable.ofDatum? herders,
          ← Storable.ofDatum? current, turn, ← Storable.ofDatum? stack⟩
    | _ => none

namespace State

def validate (state : State) : Except Corruption Unit := do
  state.stack.validate
  Corruption.unless (state.current.index < state.herders.count) .currentSeat
  Corruption.unless (!state.trail.isEmpty) .emptyTrail
  Corruption.unless (state.herders.seats.all fun herder => Track.holds state.trail herder.position)
    .herderPosition

instance : Saved State where
  validate := validate

def locationOf (state : State) (seat : Seat) : Except Fault (Option Location) := do
  Track.locate state.trail (← state.herders.get seat).position

end State

end TurnObligations.Trail
