import TurnObligations.Bazaar.State
import TurnObligations.Cards
import TurnObligations.Turn.Driver

/-!
Playing the bazaar. A turn is a mandatory move followed by what the place reached asks for. Bonus
cards held when it opens may be played as long as the order has work, and lapse with it.
-/

namespace TurnObligations.Bazaar

inductive Rejection where
  | notEnoughLira (needed available : UInt32)
  | noGoods
  | noBonusCards
  | gameOver (winner : Seat)
deriving DecidableEq, Repr

def Rejection.message : Rejection → String
  | .notEnoughLira needed available =>
      s!"not enough lira: need {needed.toNat}, have {available.toNat}"
  | .noGoods => "no goods to sell"
  | .noBonusCards => "no bonus card in hand"
  | .gameOver winner => s!"the game is over, {winner.describe} won"

def liraPerGood : UInt32 := 3

def goodsPerTake : UInt8 := 2

def bonusCardMax : Nat := 3

namespace Merchant

def goodsAfterTake (capacity goods : UInt8) : UInt8 :=
  UInt8.ofNat (min (min (goods.toNat + goodsPerTake.toNat) 255) capacity.toNat)

end Merchant

namespace State

def active (state : State) : Except Fault Merchant := state.merchants.get state.current

def withActive (merchant : Merchant) (state : State) : State :=
  { state with merchants := state.merchants.set state.current merchant }

open Executed (allow reject)

abbrev Step := Except Fault (Executed State Action Rejection)

def moveOn (state : State) (generator : Generator) : Step := do
  let merchant ← state.active
  let (index, place) ← Track.advance state.places merchant.place
  allow (state.withActive { merchant with place := some index }) generator
    ⟨place.obligations, true⟩

def takeGoods (state : State) (generator : Generator) : Step := do
  let merchant ← state.active
  let goods := Merchant.goodsAfterTake state.rules.goodsCapacity merchant.goods
  allow (state.withActive { merchant with goods }) generator (.none true)

def sellGoods (state : State) (generator : Generator) : Step := do
  let merchant ← state.active
  if merchant.goods = 0 then reject state generator .noGoods
  else
    let lira ← Counter.add32 merchant.lira liraPerGood
    allow (state.withActive { merchant with goods := merchant.goods - 1, lira }) generator
      (.none true)

def buyRuby (state : State) (generator : Generator) : Step := do
  let merchant ← state.active
  let price := state.rules.rubyPrice
  if merchant.lira < price then reject state generator (.notEnoughLira price merchant.lira)
  else
    let rubies ← Counter.add8 merchant.rubies 1
    allow (state.withActive { merchant with lira := merchant.lira - price, rubies }) generator
      (.none true)

def drawBonusCard (state : State) (generator : Generator) : Step := do
  let (index, generator) ← generator.index bonusCardMax
  let merchant ← state.active
  let bonusCards := merchant.bonusCards ++ [UInt8.ofNat (1 + index)]
  allow (state.withActive { merchant with bonusCards }) generator (.none false)

def discardBonusCard (state : State) (generator : Generator) : Step := do
  let merchant ← state.active
  match Cards.takeLowest? merchant.bonusCards with
  | none => reject state generator .noBonusCards
  | some (_, bonusCards) =>
      allow (state.withActive { merchant with bonusCards }) generator (.none true)

def playBonusCard (state : State) (generator : Generator) : Step := do
  let merchant ← state.active
  match Cards.takeHighest? merchant.bonusCards with
  | none => reject state generator .noBonusCards
  | some (card, bonusCards) =>
      let lira ← Counter.add32 merchant.lira card.toUInt32
      allow (state.withActive { merchant with lira, bonusCards }) generator (.none true)

/-- Once a merchant has won, every move is rejected. -/
def execute (action : Action) (state : State) (generator : Generator) : Step :=
  match state.winner? with
  | some winner => reject state generator (.gameOver winner)
  | none =>
      match action with
      | .move => state.moveOn generator
      | .takeGoods => state.takeGoods generator
      | .sellGoods => state.sellGoods generator
      | .buyRuby => state.buyRuby generator
      | .drawBonusCard => state.drawBonusCard generator
      | .discardBonusCard => state.discardBonusCard generator
      | .playBonusCard => state.playBonusCard generator

def openTurn (state : State) : Except Fault State := do
  let queue ← state.queue.push [.mandatory .move]
  let held := UInt32.ofNat (← state.active).bonusCards.length
  let plays := Obligation.freshRepeat 0 held (.mandatory .playBonusCard)
  return { state with queue := ← if 0 < held then queue.pushAnyTime plays else .ok queue }

def startNextTurn (state : State) : Except Fault State := do
  let current ← state.current.next state.merchants.count
  let turn ← Counter.add32 state.turn 1
  openTurn { state with current, turn }

instance : TurnGame State Action (Queue Action) Rejection where
  pending := State.queue
  withPending queue state := { state with queue }
  currentSeat := State.current
  execute := execute
  snapshot := Snapshot.encode
  restore snapshot _ := snapshot.decode
  startNextTurn := startNextTurn
  shouldEnd state := state.queue.order.isEmpty

/-- Lets the player turn from a half-resolved obligation to the pool. -/
def releaseCurrent (state : State) : State := { state with queue := state.queue.release }

end State

/-! ### A new game -/

structure Setup where
  players : Nat
  lira : UInt32
  bonusCards : List UInt8
  rules : Rules
  places : List Place

namespace Setup

def standard : Setup := ⟨2, 2, [], ⟨12, 3, 5⟩, Place.standardBazaar⟩

def withPlayers (players : Nat) (setup : Setup) : Except Fault Setup := do
  require (2 ≤ players && players ≤ 5) (.playersBetween 2 5)
  return { setup with players }

def withLira (lira : UInt32) (setup : Setup) : Setup := { setup with lira }

def withBonusCards (bonusCards : List UInt8) (setup : Setup) : Setup := { setup with bonusCards }

def withRubyPrice (rubyPrice : UInt32) (setup : Setup) : Setup :=
  { setup with rules := { setup.rules with rubyPrice } }

def withRubiesToWin (rubiesToWin : UInt8) (setup : Setup) : Except Fault Setup := do
  require (0 < rubiesToWin) .rubiesToWin
  return { setup with rules := { setup.rules with rubiesToWin } }

def withGoodsCapacity (goodsCapacity : UInt8) (setup : Setup) : Except Fault Setup := do
  require (0 < goodsCapacity) .goodsCapacity
  return { setup with rules := { setup.rules with goodsCapacity } }

def withPlaces (places : List Place) (setup : Setup) : Except Fault Setup := do
  require (!places.isEmpty) .bazaarPlaces
  return { setup with places }

def build (setup : Setup) : Except Fault State := do
  let merchants ← SeatMap.build setup.players fun _ =>
    .ok ⟨none, setup.lira, 0, 0, setup.bonusCards⟩
  State.openTurn ⟨setup.rules, setup.places, merchants, ⟨0⟩, 0, .empty⟩

end Setup

end TurnObligations.Bazaar
