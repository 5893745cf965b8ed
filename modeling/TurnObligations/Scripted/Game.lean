import TurnObligations.Turn.Driver

/-!
A game without a board, whose moves mean nothing of their own and in which the effect of the next one
is written beforehand. It exercises the turn rules with either kind of container.
-/

namespace TurnObligations.Scripted

inductive Action where
  | a
  | b
  | c
  | d
  | draw
  | discard
  | move
  | remove
deriving DecidableEq, Repr

namespace Action

def all : List Action := [.a, .b, .c, .d, .draw, .discard, .move, .remove]

def name : Action → String
  | .a => "A"
  | .b => "B"
  | .c => "C"
  | .d => "D"
  | .draw => "Draw"
  | .discard => "Discard"
  | .move => "Move"
  | .remove => "Remove"

def ofName? (text : String) : Option Action := all.find? fun action => action.name == text

instance : NamedAction Action where
  name := name
  ofName? := ofName?
  ofName?_name action := by cases action <;> rfl

end Action

structure State (Pending : Type) where
  pending : Pending
  current : Seat
  turn : UInt32
  executed : UInt32
  interrupt : Bool

instance {Pending : Type} [Storable Pending] : Storable (State Pending) where
  shape := .record "ScriptedState"
    [("container", Storable.shape Pending), ("current", Storable.shape Seat), ("turn", .count),
      ("executed", .count), ("interrupt", .bool)]
  toDatum state := .record
    [("container", Storable.toDatum state.pending), ("current", Storable.toDatum state.current),
      ("turn", .count state.turn), ("executed", .count state.executed),
      ("interrupt", .bool state.interrupt)]
  ofDatum?
    | .record [(_, pending), (_, current), (_, .count turn), (_, .count executed),
        (_, .bool interrupt)] => do
        return ⟨← Storable.ofDatum? pending, ← Storable.ofDatum? current, turn, executed, interrupt⟩
    | _ => none

/-- Players, opening and script are no part of what a snapshot holds. -/
structure Game (Pending : Type) where
  state : State Pending
  players : Nat
  opening : List (Obligation Action)
  script : Option (Except String (Outcome Action))

namespace Game

variable {Pending : Type} [Container Pending Action]

def start (players : Nat) (opening : List (Obligation Action)) (empty : Pending) :
    Except Fault (Game Pending) := do
  return ⟨⟨← Container.push opening empty, ⟨0⟩, 0, 0, false⟩, players, opening, none⟩

def withScript (script : Except String (Outcome Action)) (game : Game Pending) : Game Pending :=
  { game with script := some script }

def withInterrupt (interrupt : Bool) (game : Game Pending) : Game Pending :=
  { game with state := { game.state with interrupt } }

def execute (_ : Action) (game : Game Pending) (generator : Generator) :
    Except Fault (Executed (Game Pending) Action String) := do
  let executed ← Counter.add32 game.state.executed 1
  let result := game.script.getD (.ok (.none true))
  return ⟨{ game with state := { game.state with executed }, script := none }, generator, result⟩

def startNextTurn (game : Game Pending) : Except Fault (Game Pending) := do
  let current ← game.state.current.next game.players
  let turn ← Counter.add32 game.state.turn 1
  let pending ← Container.push game.opening game.state.pending
  return { game with state := { game.state with current, turn, pending } }

instance [Storable Pending] : TurnGame (Game Pending) Action Pending String where
  pending game := game.state.pending
  withPending pending game := { game with state := { game.state with pending } }
  currentSeat game := game.state.current
  execute := execute
  snapshot game := Snapshot.encode game.state
  restore snapshot game := do return { game with state := ← snapshot.decode }
  startNextTurn := startNextTurn
  interrupted game := game.state.interrupt

end Game

end TurnObligations.Scripted
