import TurnObligations.Proofs.Container
import TurnObligations.Proofs.Turn.Upheld

/-!
When calls come back: a move that everything allows succeeds, and no call breaks down on a game whose
parts do not.
-/

namespace TurnObligations

section Total

variable {Game Action Pending Reason Request : Type} [Container Pending Action]
  [TurnGame Game Action Pending Reason]

def Startable (game : Game) : Prop :=
  ∃ next, TurnGame.startNextTurn
    (TurnGame.withPending (Container.clear (TurnGame.pending game)) game) = .ok next

def Command.snaps : Command Action Request → Bool
  | .perform _ => true
  | .skip => true
  | _ => false

namespace Play

variable {play : Play Game}

theorem finishTurn_returns (play : Play Game) (startable : Startable play.game) :
    ∃ finished, play.finishTurn = .ok finished := by
  obtain ⟨next, started⟩ := startable
  exact ⟨_, by rw [finishTurn, started]; rfl⟩

theorem endTurnIfDone_returns (play : Play Game)
    (startable : TurnGame.shouldEnd play.game = true → Startable play.game) :
    ∃ done, play.endTurnIfDone = .ok done := by
  rw [endTurnIfDone]
  split
  · next finished =>
      obtain ⟨⟨after, event, next⟩, given⟩ := finishTurn_returns play (startable finished)
      exact ⟨_, by rw [given]; rfl⟩
  · exact ⟨_, rfl⟩

/-! ### Moves and skips that succeed -/

theorem perform_succeeds {action : Action} {generator drawn : Generator} {taken : Snapshot}
    {consumed left : Pending} {after : Game} {outcome : Outcome Action}
    (snapped : TurnGame.snapshot play.game = .ok taken)
    (accepted : Container.perform action (TurnGame.pending play.game) = .ok consumed)
    (executed : TurnGame.execute action (TurnGame.withPending consumed play.game) generator =
      .ok ⟨after, drawn, .ok outcome⟩)
    (pushed : Container.pushOutcome outcome (TurnGame.pending after) = .ok left)
    (startable : TurnGame.shouldEnd (TurnGame.withPending left after) = true →
      Startable (TurnGame.withPending left after)) :
    ∃ report status, play.perform action generator = .ok report ∧ report.result = .ok status := by
  obtain ⟨⟨settled, events, status⟩, done⟩ := endTurnIfDone_returns
    ⟨TurnGame.withPending left after, logged taken outcome.undoAllowed play.undo⟩ startable
  have performed : play.perform action generator = .ok ⟨settled, drawn,
      .performed (TurnGame.currentSeat after) action outcome.followUps.length
        outcome.undoAllowed :: events, .ok status⟩ := by
    rw [perform, snapped, ok_bind, accepted]
    dsimp only
    rw [executed, ok_bind]
    dsimp only
    rw [logged] at done
    rw [conclude, pushed, ok_bind, done]
    rfl
  exact ⟨_, status, performed, rfl⟩

theorem skip_succeeds {generator : Generator} {taken : Snapshot} {left : Pending}
    (snapped : TurnGame.snapshot play.game = .ok taken)
    (accepted : Container.skip (TurnGame.pending play.game) = .ok left)
    (startable : TurnGame.shouldEnd (TurnGame.withPending left play.game) = true →
      Startable (TurnGame.withPending left play.game)) :
    ∃ report status, play.skip generator = .ok report ∧ report.result = .ok status := by
  obtain ⟨⟨settled, events, status⟩, done⟩ := endTurnIfDone_returns
    ⟨TurnGame.withPending left play.game, play.undo.record taken⟩ startable
  have skipped : play.skip generator = .ok ⟨settled, generator,
      .skipped (TurnGame.currentSeat (TurnGame.withPending left play.game)) :: events,
      .ok status⟩ := by
    rw [skip, snapped, ok_bind, accepted]
    dsimp only
    rw [done]
    rfl
  exact ⟨_, status, skipped, rfl⟩

/-- The player is not stuck: a skip succeeds, or one of the moves offered does. -/
def CanGoOn (play : Play Game) (generator : Generator) : Prop :=
  (∃ report status, play.skip generator = .ok report ∧ report.result = .ok status) ∨
    ∃ offered, Container.possibleActions (TurnGame.pending play.game) = .ok offered ∧
      ∃ action ∈ offered, ∃ report status,
        play.perform action generator = .ok report ∧ report.result = .ok status

theorem canGoOn_of_skip {generator : Generator} {taken : Snapshot} {left : Pending}
    (snapped : TurnGame.snapshot play.game = .ok taken)
    (accepted : Container.skip (TurnGame.pending play.game) = .ok left)
    (startable : Startable (TurnGame.withPending left play.game)) : play.CanGoOn generator :=
  .inl (skip_succeeds snapped accepted fun _ => startable)

theorem canGoOn_of_perform {action : Action} {generator drawn : Generator} {taken : Snapshot}
    {consumed left : Pending} {after : Game} {outcome : Outcome Action}
    (snapped : TurnGame.snapshot play.game = .ok taken)
    (predicted : Container.Predicted (TurnGame.pending play.game))
    (accepted : Container.perform action (TurnGame.pending play.game) = .ok consumed)
    (executed : TurnGame.execute action (TurnGame.withPending consumed play.game) generator =
      .ok ⟨after, drawn, .ok outcome⟩)
    (pushed : Container.pushOutcome outcome (TurnGame.pending after) = .ok left)
    (startable : Startable (TurnGame.withPending left after)) : play.CanGoOn generator := by
  obtain ⟨offered, listed, member⟩ := predicted.offers accepted
  exact .inr ⟨offered, listed, action, member,
    perform_succeeds snapped accepted executed pushed fun _ => startable⟩

/-! ### Calls that come back -/

/-- Nothing that a call asks of the game or of what is pending breaks a precondition, and no move does
that is executed after a snapshot could be taken. -/
structure Sturdy (game : Game) : Prop where
  performs : ∀ action, Faultless (Container.perform action (TurnGame.pending game))
  executes : ∀ {taken : Snapshot} {action : Action} {consumed : Pending} (generator : Generator),
    TurnGame.snapshot game = .ok taken →
    Container.perform action (TurnGame.pending game) = .ok consumed →
    ∃ executed, TurnGame.execute action (TurnGame.withPending consumed game) generator = .ok executed
  pushes : ∀ {taken : Snapshot} {action : Action} {consumed : Pending} {generator drawn : Generator}
    {after : Game} {outcome : Outcome Action}, TurnGame.snapshot game = .ok taken →
    Container.perform action (TurnGame.pending game) = .ok consumed →
    TurnGame.execute action (TurnGame.withPending consumed game) generator =
      .ok ⟨after, drawn, .ok outcome⟩ →
    ∃ left, Container.pushOutcome outcome (TurnGame.pending after) = .ok left ∧
      Startable (TurnGame.withPending left after)
  skips : Faultless (Container.skip (TurnGame.pending game))
  skipsAll : Faultless (Container.skipAll (TurnGame.pending game))
  starts : ∀ left : Pending, Startable (TurnGame.withPending left game)

/-- The call comes back, and not because a state could not be brought back. -/
def Returns (service : Service Game Action Request) (command : Command Action Request)
    (play : Play Game) (generator : Generator) : Prop :=
  ∃ report, play.call service command generator = .ok report ∧
    ∀ flaw, report.result ≠ .error (.storage flaw)

theorem perform_returns {taken : Snapshot} (action : Action) (generator : Generator)
    (sturdy : Sturdy play.game) (snapped : TurnGame.snapshot play.game = .ok taken) :
    ∃ report, play.perform action generator = .ok report := by
  rw [perform, snapped, ok_bind]
  cases accepted : Container.perform action (TurnGame.pending play.game) with
  | error stop =>
      cases stop with
      | refused refusal => exact ⟨_, rfl⟩
      | faulted fault => exact absurd accepted (sturdy.performs action fault)
  | ok consumed =>
      obtain ⟨⟨after, drawn, result⟩, executed⟩ :=
        sturdy.executes generator snapped accepted
      dsimp only
      rw [executed, ok_bind]
      cases result with
      | error reason => exact ⟨_, rfl⟩
      | ok outcome =>
          obtain ⟨left, pushed, startable⟩ := sturdy.pushes snapped accepted executed
          obtain ⟨⟨settled, events, status⟩, done⟩ := endTurnIfDone_returns
            ⟨TurnGame.withPending left after,
              logged taken outcome.undoAllowed play.undo⟩ fun _ => startable
          dsimp only
          rw [logged] at done
          rw [conclude, pushed, ok_bind, done]
          exact ⟨_, rfl⟩

theorem skip_returns {taken : Snapshot} (generator : Generator) (sturdy : Sturdy play.game)
    (snapped : TurnGame.snapshot play.game = .ok taken) :
    ∃ report, play.skip generator = .ok report := by
  rw [skip, snapped, ok_bind]
  cases accepted : Container.skip (TurnGame.pending play.game) with
  | error stop =>
      cases stop with
      | refused refusal => exact ⟨_, rfl⟩
      | faulted fault => exact absurd accepted (sturdy.skips fault)
  | ok left =>
      obtain ⟨⟨settled, events, status⟩, done⟩ := endTurnIfDone_returns
        ⟨TurnGame.withPending left play.game, play.undo.record taken⟩
        fun _ => sturdy.starts left
      dsimp only
      rw [done]
      exact ⟨_, rfl⟩

theorem endTurn_returns (generator : Generator) (sturdy : Sturdy play.game) :
    ∃ report, play.endTurn generator = .ok report := by
  rw [endTurn]
  cases accepted : Container.skipAll (TurnGame.pending play.game) with
  | error stop =>
      cases stop with
      | refused refusal => exact ⟨_, rfl⟩
      | faulted fault => exact absurd accepted (sturdy.skipsAll fault)
  | ok left =>
      obtain ⟨⟨after, event, next⟩, finished⟩ := finishTurn_returns
        ⟨TurnGame.withPending left play.game, play.undo⟩ (sturdy.starts left)
      dsimp only
      rw [finished]
      exact ⟨_, rfl⟩

theorem call_returns [LawfulGame Game] {holds : Game → Prop} {service : Service Game Action Request}
    {command : Command Action Request} (generator : Generator) (sturdy : Sturdy play.game)
    (keeps : play.Keeps holds)
    (snapped : command.snaps = true → ∃ taken, TurnGame.snapshot play.game = .ok taken)
    (served : ∀ request, ∃ answer, service request play = .ok answer) :
    play.Returns service command generator := by
  cases command with
  | perform action =>
      obtain ⟨taken, snapped⟩ := snapped rfl
      obtain ⟨report, performed⟩ := perform_returns action generator sturdy snapped
      refine ⟨report.withReply .status, by rw [call, performed]; rfl, ?_⟩
      cases perform_cases performed with
      | refused error restored =>
          intro flaw failed
          exact restored flaw (Except.error.inj failed)
      | happened => nofun
  | skip =>
      obtain ⟨taken, snapped⟩ := snapped rfl
      obtain ⟨report, skipped⟩ := skip_returns generator sturdy snapped
      refine ⟨report.withReply .status, by rw [call, skipped]; rfl, ?_⟩
      cases skip_cases skipped with
      | refused error restored =>
          intro flaw failed
          exact restored flaw (Except.error.inj failed)
      | happened => nofun
  | endTurn =>
      obtain ⟨report, ended⟩ := endTurn_returns generator sturdy
      refine ⟨report.withReply .next, by rw [call, ended]; rfl, ?_⟩
      cases endTurn_cases ended with
      | refused error restored =>
          intro flaw failed
          exact restored flaw (Except.error.inj failed)
      | happened => nofun
  | takeBack =>
      obtain ⟨_, restored⟩ := takeBack_keeps keeps
      have called : play.call service .takeBack generator = .ok ⟨play.takeBack.1, generator, [],
          (play.takeBack.2.mapError .storage).map .undone⟩ := rfl
      refine ⟨_, called, ?_⟩
      cases answered : play.takeBack.2 with
      | ok done => nofun
      | error flaw => exact absurd answered (restored flaw)
  | extra request =>
      obtain ⟨⟨after, events⟩, answer⟩ := served request
      exact ⟨⟨after, generator, events, .ok .served⟩, by rw [call, answer]; rfl, nofun⟩

end Play

theorem upkeep_returns [Saved Game] {service : Service Game Action Request} {play : Play Game}
    (startable : Startable play.game) (own : ∀ request, ∃ answer, service request play = .ok answer)
    (request : Upkeep Request) : ∃ answer, upkeep service request play = .ok answer := by
  cases request with
  | saveAndLoad => exact ⟨_, rfl⟩
  | finishTurn =>
      obtain ⟨⟨after, event, next⟩, finished⟩ := Play.finishTurn_returns play startable
      exact ⟨_, by rw [upkeep, finished]; rfl⟩
  | own request => exact own request

end Total

end TurnObligations
