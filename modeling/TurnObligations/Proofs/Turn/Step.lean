import TurnObligations.Proofs.Answer
import TurnObligations.Turn.Driver

/-!
What a call can do to a game under way: nothing at all, or one move, skip or end of turn.
-/

namespace TurnObligations

/-- What the turn rules rely on. A snapshot brings back the game it was taken of, and a move that is
rejected or may be taken back has drawn nothing. -/
class LawfulGame (Game : Type) {Action Pending Reason : Type} [Container Pending Action]
    [TurnGame Game Action Pending Reason] : Prop where
  restores : ∀ {game : Game} {taken : Snapshot}, TurnGame.snapshot game = .ok taken →
    ∀ other : Game, TurnGame.restore taken other = .ok game
  rejects : ∀ {action : Action} {game after : Game} {generator drawn : Generator} {reason : Reason},
    TurnGame.execute action game generator = .ok ⟨after, drawn, .error reason⟩ → drawn = generator
  allows : ∀ {action : Action} {game after : Game} {generator drawn : Generator}
    {outcome : Outcome Action},
    TurnGame.execute action game generator = .ok ⟨after, drawn, .ok outcome⟩ →
    outcome.undoAllowed = true → drawn = generator

namespace Play

section Steps

variable {Game Action Pending Reason : Type} [Container Pending Action]
  [TurnGame Game Action Pending Reason]

/-- A turn goes on, or it ends and the next one starts. -/
inductive Settles (play : Play Game) : Play Game → List (MoveEvent Action) → TurnStatus → Prop
  | continues (pending : TurnGame.shouldEnd play.game = false) : Settles play play [] .continues
  | ends {game : Game} (settled : TurnGame.shouldEnd play.game = true)
      (started : TurnGame.startNextTurn
        (TurnGame.withPending (Container.clear (TurnGame.pending play.game)) play.game) = .ok game) :
      Settles play ⟨game, .empty⟩
        [.turnEnded (TurnGame.currentSeat play.game) (TurnGame.currentSeat game)]
        (.ended (TurnGame.currentSeat game))

def logged (taken : Snapshot) (undoAllowed : Bool) (log : UndoLog) : UndoLog :=
  if undoAllowed then log.record taken else .empty

inductive Performs (action : Action) (play : Play Game) (generator : Generator) :
    Report Game Action Reason TurnStatus → Prop
  | refused (error : TurnError Action Reason) (restored : ∀ flaw, error ≠ .storage flaw) :
      Performs action play generator ⟨play, generator, [], .error error⟩
  | happened {taken : Snapshot} {consumed pending : Pending} {game : Game} {drawn : Generator}
      {outcome : Outcome Action} {after : Play Game} {events : List (MoveEvent Action)}
      {status : TurnStatus} (snapped : TurnGame.snapshot play.game = .ok taken)
      (accepted : Container.perform action (TurnGame.pending play.game) = .ok consumed)
      (executed : TurnGame.execute action (TurnGame.withPending consumed play.game) generator =
        .ok ⟨game, drawn, .ok outcome⟩)
      (pushed : Container.pushOutcome outcome (TurnGame.pending game) = .ok pending)
      (settled : Settles ⟨TurnGame.withPending pending game,
        logged taken outcome.undoAllowed play.undo⟩ after events status) :
      Performs action play generator ⟨after, drawn,
        .performed (TurnGame.currentSeat game) action outcome.followUps.length outcome.undoAllowed ::
          events, .ok status⟩

inductive Skips (play : Play Game) (generator : Generator) :
    Report Game Action Reason TurnStatus → Prop
  | refused (error : TurnError Action Reason) (restored : ∀ flaw, error ≠ .storage flaw) :
      Skips play generator ⟨play, generator, [], .error error⟩
  | happened {taken : Snapshot} {pending : Pending} {after : Play Game}
      {events : List (MoveEvent Action)} {status : TurnStatus}
      (snapped : TurnGame.snapshot play.game = .ok taken)
      (accepted : Container.skip (TurnGame.pending play.game) = .ok pending)
      (settled : Settles ⟨TurnGame.withPending pending play.game, play.undo.record taken⟩
        after events status) :
      Skips play generator ⟨after, generator,
        .skipped (TurnGame.currentSeat (TurnGame.withPending pending play.game)) :: events,
        .ok status⟩

inductive EndsTurn (play : Play Game) (generator : Generator) :
    Report Game Action Reason Seat → Prop
  | refused (error : TurnError Action Reason) (restored : ∀ flaw, error ≠ .storage flaw) :
      EndsTurn play generator ⟨play, generator, [], .error error⟩
  | happened {pending : Pending} {forfeited game : Game}
      (accepted : Container.skipAll (TurnGame.pending play.game) = .ok pending)
      (given : TurnGame.withPending pending play.game = forfeited)
      (started : TurnGame.startNextTurn
        (TurnGame.withPending (Container.clear (TurnGame.pending forfeited)) forfeited) = .ok game) :
      EndsTurn play generator ⟨⟨game, .empty⟩, generator,
        [.turnEnded (TurnGame.currentSeat forfeited) (TurnGame.currentSeat game)],
        .ok (TurnGame.currentSeat game)⟩

theorem finishTurn_cases {play after : Play Game} {event : MoveEvent Action} {next : Seat}
    (finished : play.finishTurn = .ok (after, event, next)) :
    ∃ game, TurnGame.startNextTurn
        (TurnGame.withPending (Container.clear (TurnGame.pending play.game)) play.game) = .ok game ∧
      after = ⟨game, .empty⟩ ∧ next = TurnGame.currentSeat game ∧
      event = .turnEnded (TurnGame.currentSeat play.game) next := by
  obtain ⟨game, started, result⟩ := bind_eq_ok.mp finished
  cases result
  exact ⟨game, started, rfl, rfl, rfl⟩

theorem endTurnIfDone_cases {play after : Play Game} {events : List (MoveEvent Action)}
    {status : TurnStatus} (done : play.endTurnIfDone = .ok (after, events, status)) :
    Settles play after events status := by
  rw [endTurnIfDone] at done
  split at done
  · next settled =>
      obtain ⟨⟨ended, event, next⟩, finished, result⟩ := bind_eq_ok.mp done
      obtain ⟨game, started, rfl, rfl, rfl⟩ := finishTurn_cases finished
      cases result
      exact .ends settled started
  · next pending =>
      cases done
      exact .continues (by simpa using pending)

theorem conclude_cases {play : Play Game} {action : Action} {taken : Snapshot}
    {consumed : Pending} {generator drawn : Generator} {game : Game} {outcome : Outcome Action}
    {report : Report Game Action Reason TurnStatus}
    (snapped : TurnGame.snapshot play.game = .ok taken)
    (accepted : Container.perform action (TurnGame.pending play.game) = .ok consumed)
    (executed : TurnGame.execute action (TurnGame.withPending consumed play.game) generator =
      .ok ⟨game, drawn, .ok outcome⟩)
    (concluded : conclude taken action play.undo game drawn outcome = .ok report) :
    Performs action play generator report := by
  rw [conclude] at concluded
  obtain ⟨pending, pushed, rest⟩ := bind_eq_ok.mp concluded
  obtain ⟨⟨after, events, status⟩, done, result⟩ := bind_eq_ok.mp rest
  cases result
  exact .happened snapped accepted executed pushed (endTurnIfDone_cases done)

theorem perform_cases [LawfulGame Game] {action : Action} {play : Play Game} {generator : Generator}
    {report : Report Game Action Reason TurnStatus}
    (performed : play.perform action generator = .ok report) :
    Performs action play generator report := by
  obtain ⟨taken, snapped, rest⟩ := bind_eq_ok.mp performed
  split at rest
  · cases rest
  · cases rest
    exact .refused _ nofun
  · next consumed accepted =>
      obtain ⟨⟨game, drawn, result⟩, executed, answered⟩ := bind_eq_ok.mp rest
      cases result with
      | ok outcome => exact conclude_cases snapped accepted executed answered
      | error reason =>
          -- whatever the game has touched by now is in the snapshot, and it has drawn nothing
          simp only [rollBack, LawfulGame.restores snapped, LawfulGame.rejects executed] at answered
          exact Except.ok.inj answered ▸ .refused _ nofun

theorem perform_rejected {action : Action} {play : Play Game} {generator : Generator}
    {report : Report Game Action Reason TurnStatus} {reason : Reason}
    (performed : play.perform action generator = .ok report)
    (rejected : report.result = .error (.rejected reason)) :
    ∃ consumed game drawn, Container.perform action (TurnGame.pending play.game) = .ok consumed ∧
      TurnGame.execute action (TurnGame.withPending consumed play.game) generator =
        .ok ⟨game, drawn, .error reason⟩ := by
  obtain ⟨_, _, rest⟩ := bind_eq_ok.mp performed
  split at rest
  · cases rest
  · cases rest
    cases rejected
  · next consumed accepted =>
      obtain ⟨⟨game, drawn, result⟩, executed, answered⟩ := bind_eq_ok.mp rest
      cases result with
      | ok outcome =>
          obtain ⟨pending, _, rest⟩ := bind_eq_ok.mp answered
          obtain ⟨⟨after, events, status⟩, _, result⟩ := bind_eq_ok.mp rest
          cases result
          cases rejected
      | error reason' =>
          simp only [rollBack] at answered
          split at answered
          · cases answered
            cases rejected
            exact ⟨consumed, game, drawn, accepted, executed⟩
          · cases answered
            cases rejected

theorem skip_cases {play : Play Game} {generator : Generator}
    {report : Report Game Action Reason TurnStatus} (skipped : play.skip generator = .ok report) :
    Skips play generator report := by
  obtain ⟨taken, snapped, rest⟩ := bind_eq_ok.mp skipped
  split at rest
  · cases rest
  · cases rest
    exact .refused _ nofun
  · next pending accepted =>
      obtain ⟨⟨after, events, status⟩, done, result⟩ := bind_eq_ok.mp rest
      cases result
      exact .happened snapped accepted (endTurnIfDone_cases done)

theorem endTurn_cases {play : Play Game} {generator : Generator}
    {report : Report Game Action Reason Seat} (ended : play.endTurn generator = .ok report) :
    EndsTurn play generator report := by
  rw [endTurn] at ended
  split at ended
  · cases ended
  · cases ended
    exact .refused _ nofun
  · next pending accepted =>
      obtain ⟨⟨after, event, next⟩, finished, result⟩ := bind_eq_ok.mp ended
      obtain ⟨game, started, rfl, rfl, rfl⟩ := finishTurn_cases finished
      cases result
      exact .happened accepted rfl started

/-! ### Calls that leave everything as it was -/

theorem perform_failed [LawfulGame Game] {action : Action} {play : Play Game}
    {generator : Generator} {report : Report Game Action Reason TurnStatus}
    {error : TurnError Action Reason} (performed : play.perform action generator = .ok report)
    (failed : report.result = .error error) : report.play = play := by
  cases perform_cases performed with
  | refused => rfl
  | happened => cases failed

theorem perform_refused {action : Action} {play : Play Game} {generator : Generator}
    {taken : Snapshot} {refusal : Refusal Action}
    (snapped : TurnGame.snapshot play.game = .ok taken)
    (refused : Container.perform action (TurnGame.pending play.game) = .error (.refused refusal)) :
    play.perform action generator = .ok ⟨play, generator, [], .error (.refused refusal)⟩ := by
  rw [perform, snapped, ok_bind, refused]
  rfl

theorem perform_rejects [LawfulGame Game] {action : Action} {play : Play Game}
    {generator drawn : Generator} {taken : Snapshot} {consumed : Pending} {game : Game}
    {reason : Reason} (snapped : TurnGame.snapshot play.game = .ok taken)
    (accepted : Container.perform action (TurnGame.pending play.game) = .ok consumed)
    (executed : TurnGame.execute action (TurnGame.withPending consumed play.game) generator =
      .ok ⟨game, drawn, .error reason⟩) :
    play.perform action generator = .ok ⟨play, generator, [], .error (.rejected reason)⟩ := by
  rw [perform, snapped, ok_bind, accepted]
  dsimp only
  rw [executed, ok_bind]
  simp only [rollBack, LawfulGame.restores snapped, LawfulGame.rejects executed]

theorem skip_refused {play : Play Game} {generator : Generator} {taken : Snapshot}
    {refusal : Refusal Action} (snapped : TurnGame.snapshot play.game = .ok taken)
    (refused : Container.skip (TurnGame.pending play.game) = .error (.refused refusal)) :
    play.skip generator = .ok ⟨play, generator, [], .error (.refused refusal)⟩ := by
  rw [skip, snapped, ok_bind, refused]
  rfl

theorem endTurn_refused {play : Play Game} {generator : Generator} {refusal : Refusal Action}
    (refused : Container.skipAll (TurnGame.pending play.game) = .error (.refused refusal)) :
    play.endTurn generator = .ok ⟨play, generator, [], .error (.refused refusal)⟩ := by
  rw [endTurn, refused]
  rfl

/-! ### What only a move changes -/

/-- A view of a game that shows neither its obligations nor whose turn it is. -/
structure Unturned {View : Type} (view : Game → View) : Prop where
  pends : ∀ (pending : Pending) (game : Game),
    view (TurnGame.withPending pending game) = view game
  starts : ∀ {game next : Game},
    TurnGame.startNextTurn (TurnGame.withPending (Container.clear (TurnGame.pending game)) game) =
      .ok next → view next = view game

namespace Unturned

variable {View : Type} {view : Game → View} {play after : Play Game} {generator : Generator}

theorem settles {events : List (MoveEvent Action)} {status : TurnStatus} (unturned : Unturned view)
    (settled : Settles play after events status) : view after.game = view play.game := by
  cases settled with
  | continues => rfl
  | ends _ started => exact unturned.starts started

theorem performs [LawfulGame Game] {action : Action}
    {report : Report Game Action Reason TurnStatus} {status : TurnStatus} (unturned : Unturned view)
    (performed : play.perform action generator = .ok report) (happened : report.result = .ok status) :
    ∃ consumed game drawn outcome,
      TurnGame.execute action (TurnGame.withPending consumed play.game) generator =
        .ok ⟨game, drawn, .ok outcome⟩ ∧ view report.play.game = view game := by
  cases perform_cases performed with
  | refused => cases happened
  | happened _ _ executed _ settled =>
      exact ⟨_, _, _, _, executed, (unturned.settles settled).trans (unturned.pends _ _)⟩

theorem skips {report : Report Game Action Reason TurnStatus} (unturned : Unturned view)
    (skipped : play.skip generator = .ok report) : view report.play.game = view play.game := by
  cases skip_cases skipped with
  | refused => rfl
  | happened _ _ settled => exact (unturned.settles settled).trans (unturned.pends _ _)

theorem finishes {event : MoveEvent Action} {next : Seat} (unturned : Unturned view)
    (finished : play.finishTurn = .ok (after, event, next)) : view after.game = view play.game := by
  obtain ⟨game, started, rfl, _, _⟩ := finishTurn_cases finished
  exact unturned.starts started

theorem endsTurn {report : Report Game Action Reason Seat} (unturned : Unturned view)
    (ended : play.endTurn generator = .ok report) : view report.play.game = view play.game := by
  cases endTurn_cases ended with
  | refused => rfl
  | happened _ given started =>
      subst given
      exact (unturned.starts started).trans (unturned.pends _ _)

end Unturned

end Steps

end Play

end TurnObligations
