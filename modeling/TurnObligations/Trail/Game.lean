import TurnObligations.Cards
import TurnObligations.Trail.State
import TurnObligations.Turn.Driver

/-!
Playing the trail. A turn is a mandatory move to the next location followed by what that location
asks for, and whatever the old location still offered is forfeited by moving.
-/

namespace TurnObligations.Trail

inductive Rejection where
  | notEnoughDollars (needed available : UInt32)
  | emptyHand
  | nothingToDraw
deriving DecidableEq, Repr

def Rejection.message : Rejection → String
  | .notEnoughDollars needed available =>
      s!"not enough dollars: need {needed.toNat}, have {available.toNat}"
  | .emptyHand => "no card in hand to discard"
  | .nothingToDraw => "draw pile and discard pile are both empty"

def cattlePrice : UInt32 := 3

def boughtCattleValue : UInt8 := 3

def toll : UInt32 := 1

def ranchGain : UInt32 := 2

namespace Herder

/-- The herder ready to draw: an empty deck is made anew from the shuffled discard pile. -/
def refill (herder : Herder) (generator : Generator) : Herder × Generator :=
  if herder.deck.isEmpty then
    let (deck, generator) := generator.shuffle herder.discard
    ({ herder with deck, discard := [] }, generator)
  else (herder, generator)

/-- The top of the deck is its last card. -/
def draw? (herder : Herder) (generator : Generator) : Option (Herder × Generator) :=
  let (herder, generator) := herder.refill generator
  herder.deck.getLast?.map fun card =>
    ({ herder with deck := herder.deck.dropLast, hand := herder.hand ++ [card] }, generator)

end Herder

namespace State

def active (state : State) : Except Fault Herder := state.herders.get state.current

def withActive (herder : Herder) (state : State) : State :=
  { state with herders := state.herders.set state.current herder }

open Executed (allow reject)

abbrev Step := Except Fault (Executed State Action Rejection)

def moveOn (state : State) (generator : Generator) : Step := do
  let herder ← state.active
  let (position, location) ← Track.advance state.trail herder.position
  let state := state.withActive { herder with position := some position }
  allow { state with stack := .empty } generator ⟨location.obligations, true⟩

def drawCard (state : State) (generator : Generator) : Step := do
  let herder ← state.active
  match herder.draw? generator with
  | none => reject state generator .nothingToDraw
  | some (herder, generator) => allow (state.withActive herder) generator (.none false)

def discardCard (state : State) (generator : Generator) : Step := do
  let location ← state.locationOf state.current
  let herder ← state.active
  match Cards.takeLowest? herder.hand with
  | none => reject state generator .emptyHand
  | some (card, hand) =>
      let dollars ← if location = some .station then Counter.add32 herder.dollars card.toUInt32
        else pure herder.dollars
      let herder := { herder with hand, dollars, discard := herder.discard ++ [card] }
      allow (state.withActive herder) generator (.none true)

def gainDollars (state : State) (generator : Generator) : Step := do
  let herder ← state.active
  let dollars ← Counter.add32 herder.dollars ranchGain
  allow (state.withActive { herder with dollars }) generator (.none true)

def buyCattle (state : State) (generator : Generator) : Step := do
  let herder ← state.active
  if herder.dollars < cattlePrice then
    reject state generator (.notEnoughDollars cattlePrice herder.dollars)
  else
    let herder := { herder with
      dollars := herder.dollars - cattlePrice
      discard := herder.discard ++ [boughtCattleValue] }
    allow (state.withActive herder) generator (.none true)

def payToll (state : State) (generator : Generator) : Step := do
  let herder ← state.active
  let dollars := if herder.dollars < toll then 0 else herder.dollars - toll
  allow (state.withActive { herder with dollars }) generator (.none true)

def execute (action : Action) (state : State) (generator : Generator) : Step :=
  match action with
  | .move => state.moveOn generator
  | .drawCard => state.drawCard generator
  | .discardCard => state.discardCard generator
  | .gain2Dollars => state.gainDollars generator
  | .buyCattle => state.buyCattle generator
  | .payToll => state.payToll generator

def startNextTurn (state : State) : Except Fault State := do
  let current ← state.current.next state.herders.count
  let turn ← Counter.add32 state.turn 1
  return { state with current, turn, stack := state.stack.push [.mandatory .move] }

instance : TurnGame State Action (Stack Action) Rejection where
  pending := State.stack
  withPending stack state := { state with stack }
  currentSeat := State.current
  execute := execute
  snapshot := Snapshot.encode
  restore snapshot _ := snapshot.decode
  startNextTurn := startNextTurn

end State

/-! ### A new game -/

def startingDeck : List UInt8 := [1, 1, 1, 2, 2, 2, 3, 4]

structure Setup where
  players : Nat
  dollars : UInt32
  handLimit : Nat
  trail : List Location

namespace Setup

def standard : Setup := ⟨2, 4, 4, Location.standardTrail⟩

def withPlayers (players : Nat) (setup : Setup) : Except Fault Setup := do
  require (2 ≤ players && players ≤ 4) (.playersBetween 2 4)
  return { setup with players }

def withDollars (dollars : UInt32) (setup : Setup) : Setup := { setup with dollars }

def withHandLimit (handLimit : Nat) (setup : Setup) : Except Fault Setup := do
  require (1 ≤ handLimit && handLimit ≤ startingDeck.length)
    (.handLimitBetween 1 startingDeck.length)
  return { setup with handLimit }

def withTrail (trail : List Location) (setup : Setup) : Except Fault Setup := do
  require (!trail.isEmpty) .trailLocations
  return { setup with trail }

def dealHerder (setup : Setup) (generator : Generator) : Herder × Generator :=
  let (deck, generator) := generator.shuffle startingDeck
  let kept := deck.length - setup.handLimit
  (⟨none, setup.dollars, deck.drop kept, deck.take kept, []⟩, generator)

def dealHerders (setup : Setup) : (seats : List Seat) → Generator → List Herder × Generator
  | [], generator => ([], generator)
  | _ :: rest, generator =>
      let (herder, generator) := setup.dealHerder generator
      let (herders, generator) := dealHerders setup rest generator
      (herder :: herders, generator)

def build (setup : Setup) (generator : Generator) : Except Fault (State × Generator) := do
  let (herders, generator) := setup.dealHerders (← SeatMap.seatsOf setup.players) generator
  return (⟨setup.trail, ⟨herders⟩, ⟨0⟩, 0, .ofList [.mandatory .move]⟩, generator)

end Setup

end TurnObligations.Trail
