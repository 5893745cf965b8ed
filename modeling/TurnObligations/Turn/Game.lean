import TurnObligations.Container
import TurnObligations.Random.Generator
import TurnObligations.Seat
import TurnObligations.Storage.Save

/-!
What a game supplies to be played in turns, what an observer of it is told, and the states a player
may go back to within a turn.
-/

namespace TurnObligations

inductive MoveEvent (Action : Type) where
  | performed (seat : Seat) (action : Action) (followUps : Nat) (undoAllowed : Bool)
  | skipped (seat : Seat)
  | turnEnded (seat next : Seat)
deriving DecidableEq, Repr

namespace MoveEvent

variable {Action : Type}

def isTurnEnd : MoveEvent Action → Bool
  | .turnEnded .. => true
  | _ => false

def action? : MoveEvent Action → Option Action
  | .performed _ action _ _ => some action
  | _ => none

end MoveEvent

def turnsEnded {Action : Type} (events : List (MoveEvent Action)) : Nat :=
  events.countP MoveEvent.isTurnEnd

def performedActions {Action : Type} (events : List (MoveEvent Action)) : List Action :=
  events.filterMap MoveEvent.action?

structure UndoLog where
  snapshots : List Snapshot
deriving DecidableEq

namespace UndoLog

def empty : UndoLog := ⟨[]⟩

def record (snapshot : Snapshot) (log : UndoLog) : UndoLog := ⟨snapshot :: log.snapshots⟩

def pop? (log : UndoLog) : Option (Snapshot × UndoLog) :=
  match log.snapshots with
  | [] => none
  | snapshot :: rest => some (snapshot, ⟨rest⟩)

def size (log : UndoLog) : Nat := log.snapshots.length

def isEmpty (log : UndoLog) : Bool := log.snapshots.isEmpty

def canUndo (log : UndoLog) : Bool := !log.isEmpty

theorem pop?_record (snapshot : Snapshot) (log : UndoLog) :
    (log.record snapshot).pop? = some (snapshot, log) := rfl

end UndoLog

structure Executed (Game Action Reason : Type) where
  game : Game
  generator : Generator
  result : Except Reason (Outcome Action)

namespace Executed

variable {Game Action Reason : Type}

def allow (game : Game) (generator : Generator) (outcome : Outcome Action) :
    Except Fault (Executed Game Action Reason) :=
  .ok ⟨game, generator, .ok outcome⟩

def reject (game : Game) (generator : Generator) (reason : Reason) :
    Except Fault (Executed Game Action Reason) :=
  .ok ⟨game, generator, .error reason⟩

end Executed

/-- `Reason` says why the game itself rejects a move. -/
class TurnGame (Game : Type) (Action Pending Reason : outParam Type)
    [Container Pending Action] where
  pending : Game → Pending
  withPending : Pending → Game → Game
  currentSeat : Game → Seat
  execute : Action → Game → Generator → Except Fault (Executed Game Action Reason)
  snapshot : Game → Except Fault Snapshot
  /-- Brings back what the snapshot holds and leaves the rest of the game. -/
  restore : Snapshot → Game → Except StorageError Game
  startNextTurn : Game → Except Fault Game
  interrupted : Game → Bool := fun _ => false
  shouldEnd : Game → Bool := fun game => Container.isEmpty (pending game) && !interrupted game

inductive TurnError (Action Reason : Type) where
  | refused (refusal : Refusal Action)
  | rejected (reason : Reason)
  | storage (error : StorageError)
deriving DecidableEq, Repr

inductive TurnStatus where
  | continues
  | ended (next : Seat)
deriving DecidableEq, Repr

structure Play (Game : Type) where
  game : Game
  undo : UndoLog

structure Report (Game Action Reason Result : Type) where
  play : Play Game
  generator : Generator
  events : List (MoveEvent Action)
  result : Except (TurnError Action Reason) Result

end TurnObligations
