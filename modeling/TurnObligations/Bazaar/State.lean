import TurnObligations.Counter
import TurnObligations.Obligation.Build
import TurnObligations.Queue.Storage
import TurnObligations.Seat
import TurnObligations.Storage.Datum

/-!
The bazaar: what merchants do and where, what each place asks of them, and the state of a game.
-/

namespace TurnObligations.Bazaar

inductive Action where
  | move
  | takeGoods
  | sellGoods
  | buyRuby
  | drawBonusCard
  | discardBonusCard
  | playBonusCard
deriving DecidableEq, Repr

namespace Action

def all : List Action :=
  [.move, .takeGoods, .sellGoods, .buyRuby, .drawBonusCard, .discardBonusCard, .playBonusCard]

def name : Action → String
  | .move => "Move"
  | .takeGoods => "TakeGoods"
  | .sellGoods => "SellGoods"
  | .buyRuby => "BuyRuby"
  | .drawBonusCard => "DrawBonusCard"
  | .discardBonusCard => "DiscardBonusCard"
  | .playBonusCard => "PlayBonusCard"

def ofName? (text : String) : Option Action := all.find? fun action => action.name == text

instance : NamedAction Action where
  name := name
  ofName? := ofName?
  ofName?_name action := by cases action <;> rfl

end Action

inductive Place where
  | warehouse
  | market
  | caravansary
  | jeweler
deriving DecidableEq, Repr

namespace Place

def all : List Place := [.warehouse, .market, .caravansary, .jeweler]

def name : Place → String
  | .warehouse => "Warehouse"
  | .market => "Market"
  | .caravansary => "Caravansary"
  | .jeweler => "Jeweler"

def position : Place → UInt32
  | .warehouse => 0
  | .market => 1
  | .caravansary => 2
  | .jeweler => 3

instance : Storable Place where
  shape := .labels (all.map name)
  toDatum place := .label place.position place.name
  ofDatum?
    | .label position _ => all[position.toNat]?
    | _ => none

open Obligation in
/-- What a merchant owes on arrival, first to last: take goods; sell up to three; draw two bonus
cards and give one back; buy a ruby or not. -/
def obligations : Place → List (Obligation Action)
  | .warehouse => [mandatory .takeGoods]
  | .market => [freshRepeat 0 3 (mandatory .sellGoods)]
  | .caravansary =>
      [freshRepeat 2 2 (mandatory .drawBonusCard), mandatory .discardBonusCard]
  | .jeweler => [optional .buyRuby]

def standardBazaar : List Place := [.warehouse, .market, .caravansary, .jeweler]

end Place

/-! ### The state and how it is stored -/

structure Merchant where
  /-- Index into the places; none before the first move. -/
  place : Option UInt64
  lira : UInt32
  goods : UInt8
  rubies : UInt8
  bonusCards : List UInt8
deriving DecidableEq

structure Rules where
  rubyPrice : UInt32
  rubiesToWin : UInt8
  goodsCapacity : UInt8
deriving DecidableEq

structure State where
  rules : Rules
  places : List Place
  merchants : SeatMap Merchant
  current : Seat
  turn : UInt32
  queue : Queue Action
deriving DecidableEq

instance : Storable Merchant where
  shape := .record "Merchant"
    [("place", Storable.shape (Option UInt64)), ("lira", .count), ("goods", .byte),
      ("rubies", .byte), ("bonus_cards", Storable.shape (List UInt8))]
  toDatum merchant := .record
    [("place", Storable.toDatum merchant.place), ("lira", .count merchant.lira),
      ("goods", .byte merchant.goods), ("rubies", .byte merchant.rubies),
      ("bonus_cards", Storable.toDatum merchant.bonusCards)]
  ofDatum?
    | .record [(_, place), (_, .count lira), (_, .byte goods), (_, .byte rubies), (_, cards)] => do
        return ⟨← Storable.ofDatum? place, lira, goods, rubies, ← Storable.ofDatum? cards⟩
    | _ => none

instance : Storable Rules where
  shape := .record "BazaarRules"
    [("ruby_price", .count), ("rubies_to_win", .byte), ("goods_capacity", .byte)]
  toDatum rules := .record
    [("ruby_price", .count rules.rubyPrice), ("rubies_to_win", .byte rules.rubiesToWin),
      ("goods_capacity", .byte rules.goodsCapacity)]
  ofDatum?
    | .record [(_, .count rubyPrice), (_, .byte rubiesToWin), (_, .byte goodsCapacity)] =>
        some ⟨rubyPrice, rubiesToWin, goodsCapacity⟩
    | _ => none

instance : Storable State where
  shape := .record "BazaarState"
    [("rules", Storable.shape Rules), ("places", Storable.shape (List Place)),
      ("merchants", Storable.shape (SeatMap Merchant)), ("current", Storable.shape Seat),
      ("turn", .count), ("queue", Storable.shape (Queue Action))]
  toDatum state := .record
    [("rules", Storable.toDatum state.rules), ("places", Storable.toDatum state.places),
      ("merchants", Storable.toDatum state.merchants), ("current", Storable.toDatum state.current),
      ("turn", .count state.turn), ("queue", Storable.toDatum state.queue)]
  ofDatum?
    | .record [(_, rules), (_, places), (_, merchants), (_, current), (_, .count turn),
        (_, queue)] => do
        return ⟨← Storable.ofDatum? rules, ← Storable.ofDatum? places,
          ← Storable.ofDatum? merchants, ← Storable.ofDatum? current, turn,
          ← Storable.ofDatum? queue⟩
    | _ => none

namespace State

def validate (state : State) : Except Corruption Unit := do
  state.queue.validate
  Corruption.unless (state.current.index < state.merchants.count) .currentSeat
  Corruption.unless (!state.places.isEmpty) .noPlaces
  Corruption.unless (state.merchants.seats.all fun merchant => Track.holds state.places merchant.place)
    .merchantPlace

instance : Saved State where
  validate := validate

def placeOf (state : State) (seat : Seat) : Except Fault (Option Place) := do
  Track.locate state.places (← state.merchants.get seat).place

def winner? (state : State) : Option Seat :=
  (state.merchants.entries.find? fun entry => state.rules.rubiesToWin ≤ entry.2.rubies).map (·.1)

end State

end TurnObligations.Bazaar
