import TurnObligations.Turn.Game

/-!
The turn rules shared by all games. A move consumes its obligation before the game executes it; when
the game then rejects it, the state is brought back from a snapshot. A turn ends by itself as soon as
nothing is pending.
-/

namespace TurnObligations.Play

variable {Game Action Pending Reason : Type} [Container Pending Action]
  [TurnGame Game Action Pending Reason]

def start (game : Game) : Play Game := ⟨game, .empty⟩

/-- Gives the turn to the next seat, dropping whatever is pending. -/
def finishTurn (play : Play Game) : Except Fault (Play Game × MoveEvent Action × Seat) := do
  let seat := TurnGame.currentSeat play.game
  let cleared := TurnGame.withPending (Container.clear (TurnGame.pending play.game)) play.game
  let game ← TurnGame.startNextTurn cleared
  let next := TurnGame.currentSeat game
  return (⟨game, .empty⟩, .turnEnded seat next, next)

def endTurnIfDone (play : Play Game) :
    Except Fault (Play Game × List (MoveEvent Action) × TurnStatus) := do
  if TurnGame.shouldEnd play.game then
    let (play, event, next) ← play.finishTurn
    return (play, [event], .ended next)
  else return (play, [], .continues)

/-- A call that is refused changes nothing. -/
def refuse {Result : Type} (play : Play Game) (generator : Generator) (refusal : Refusal Action) :
    Report Game Action Reason Result :=
  ⟨play, generator, [], .error (.refused refusal)⟩

def conclude (before : Snapshot) (action : Action) (undo : UndoLog) (game : Game)
    (generator : Generator) (outcome : Outcome Action) :
    Except Fault (Report Game Action Reason TurnStatus) := do
  let undo := if outcome.undoAllowed then undo.record before else .empty
  let event := .performed (TurnGame.currentSeat game) action outcome.followUps.length
    outcome.undoAllowed
  let pending ← Container.pushOutcome outcome (TurnGame.pending game)
  let (play, events, status) ← endTurnIfDone ⟨TurnGame.withPending pending game, undo⟩
  return ⟨play, generator, event :: events, .ok status⟩

def rollBack (before : Snapshot) (undo : UndoLog) (game : Game) (generator : Generator)
    (reason : Reason) : Report Game Action Reason TurnStatus :=
  match TurnGame.restore before game with
  | .ok restored => ⟨⟨restored, undo⟩, generator, [], .error (.rejected reason)⟩
  | .error error => ⟨⟨game, undo⟩, generator, [], .error (.storage error)⟩

def perform (action : Action) (play : Play Game) (generator : Generator) :
    Except Fault (Report Game Action Reason TurnStatus) := do
  let before ← TurnGame.snapshot play.game
  match Container.perform action (TurnGame.pending play.game) with
  | .error (.faulted fault) => .error fault
  | .error (.refused refusal) => .ok (play.refuse generator refusal)
  | .ok pending =>
      let executed ←
        TurnGame.execute action (TurnGame.withPending pending play.game) generator
      match executed.result with
      | .error reason => .ok (rollBack before play.undo executed.game executed.generator reason)
      | .ok outcome =>
          conclude before action play.undo executed.game executed.generator outcome

def skip (play : Play Game) (generator : Generator) :
    Except Fault (Report Game Action Reason TurnStatus) := do
  let before ← TurnGame.snapshot play.game
  match Container.skip (TurnGame.pending play.game) with
  | .error (.faulted fault) => .error fault
  | .error (.refused refusal) => .ok (play.refuse generator refusal)
  | .ok pending =>
      let game := TurnGame.withPending pending play.game
      let (after, events, status) ← endTurnIfDone ⟨game, play.undo.record before⟩
      return ⟨after, generator, .skipped (TurnGame.currentSeat game) :: events, .ok status⟩

def endTurn (play : Play Game) (generator : Generator) :
    Except Fault (Report Game Action Reason Seat) := do
  match Container.skipAll (TurnGame.pending play.game) with
  | .error (.faulted fault) => .error fault
  | .error (.refused refusal) => .ok (play.refuse generator refusal)
  | .ok pending =>
      let (after, event, next) ←
        finishTurn ⟨TurnGame.withPending pending play.game, play.undo⟩
      return ⟨after, generator, [event], .ok next⟩

/-- Goes back by one move or skip of this turn; the answer tells whether there was one. -/
def takeBack (play : Play Game) : Play Game × Except StorageError Bool :=
  match play.undo.pop? with
  | none => (play, .ok false)
  | some (snapshot, undo) =>
      match TurnGame.restore snapshot play.game with
      | .ok game => (⟨game, undo⟩, .ok true)
      | .error error => (⟨play.game, undo⟩, .error error)

end TurnObligations.Play
