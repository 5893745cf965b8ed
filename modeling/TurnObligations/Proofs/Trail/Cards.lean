import TurnObligations.Proofs.Trail.Size
import TurnObligations.Proofs.Turn.Effect

/-!
Cards on the trail: whatever is drawn, reshuffled, discarded or taken back, herders hold the cards that
they were dealt and those that they bought.
-/

namespace TurnObligations.Trail

def board (state : State) : List Location × SeatMap Herder := (state.trail, state.herders)

theorem unturned_board : Play.Unturned board where
  pends _ _ := rfl
  starts started := by
    obtain ⟨current, turn, _, _, rfl⟩ := State.startNextTurn_eq_ok started
    rfl

theorem unturned_herders : Play.Unturned State.herders where
  pends _ _ := rfl
  starts started := congrArg Prod.snd (unturned_board.starts started)

theorem perform_herders {play : Play State} {generator : Generator} {action : Action}
    {report : Report State Action Rejection TurnStatus} {status : TurnStatus}
    (performed : play.perform action generator = .ok report) (happened : report.result = .ok status) :
    report.play.game.trail = play.game.trail ∧ ∃ herder next,
      play.game.herders.get play.game.current = .ok herder ∧
      report.play.game.herders = play.game.herders.set play.game.current next ∧
      next.cards.Perm
        (herder.cards ++ List.replicate (State.bought action) boughtCattleValue) := by
  obtain ⟨consumed, game, drawn, outcome, executed, seen⟩ :=
    unturned_board.performs performed happened
  obtain ⟨herder, next, stack, active, does, rfl⟩ := State.execute_does executed
  simp only [board, Prod.mk.injEq] at seen
  obtain ⟨trail, herders⟩ := seen
  exact ⟨trail, herder, next, active, herders, does.cards_perm⟩

/-! ### Cards bought -/

variable {Request : Type} [DecidableEq Request] {setup : Setup}

/-- How often the herder of a seat bought cattle. -/
def purchases (seat : Seat) (calls : List (Call State Action Rejection Request)) : Nat :=
  calls.countP fun call => call.command = .perform .buyCattle ∧ call.game.current = seat

/-- Every herder at the table has the cards of a starting deck and one for each purchase. -/
structure Balanced (setup : Setup) (calls : List (Call State Action Rejection Request))
    (state : State) : Prop where
  seats : state.herders.count = setup.players
  cards : ∀ seat herder, state.herders.get seat = .ok herder →
    herder.cards.Perm
      (startingDeck ++ List.replicate (purchases seat calls) boughtCattleValue)

theorem purchases_cons (seat : Seat) (call : Call State Action Rejection Request)
    (calls : List (Call State Action Rejection Request)) :
    purchases seat (call :: calls) = purchases seat calls +
      if call.command = .perform .buyCattle ∧ call.game.current = seat then 1 else 0 := by
  simp [purchases, List.countP_cons]

namespace Balanced

variable {calls : List (Call State Action Rejection Request)} {play : Play State}
  {generator : Generator} {state : State}

theorem of_herders (balanced : Balanced setup calls play.game)
    (same : state.herders = play.game.herders) : Balanced setup calls state where
  seats := same ▸ balanced.seats
  cards seat herder here := balanced.cards seat herder (same ▸ here)

theorem perform {action : Action} {report : Report State Action Rejection TurnStatus}
    {status : TurnStatus} (balanced : Balanced setup calls play.game)
    (performed : play.perform action generator = .ok report)
    (happened : report.result = .ok status) :
    Balanced setup (⟨.perform action, play.game, generator, report.withReply .status⟩ :: calls)
      report.play.game := by
  obtain ⟨_, herder, next, active, herders, traded⟩ := perform_herders performed happened
  refine ⟨by rw [herders, SeatMap.count_set, balanced.seats], ?_⟩
  intro seat other here
  rw [herders] at here
  rw [purchases_cons]
  by_cases mover : seat = play.game.current
  · subst mover
    rw [SeatMap.get_set active] at here
    cases here
    have counted : (if (Command.perform action : Command Action Request) = .perform .buyCattle ∧
        play.game.current = play.game.current then 1 else 0) = State.bought action := by
      cases action <;> simp [State.bought]
    rw [counted, ← List.replicate_append_replicate, ← List.append_assoc]
    exact traded.trans ((balanced.cards _ herder active).append_right _)
  · rw [SeatMap.get_set_of_ne mover] at here
    have uncounted : ¬((Command.perform action : Command Action Request) = .perform .buyCattle ∧
        play.game.current = seat) := fun both => mover both.2.symm
    rw [if_neg uncounted]
    exact balanced.cards seat other here

theorem skip {report : Report State Action Rejection TurnStatus}
    (balanced : Balanced setup calls play.game) (skipped : play.skip generator = .ok report) :
    Balanced setup (⟨.skip, play.game, generator, report.withReply .status⟩ :: calls)
      report.play.game := by
  have same := balanced.of_herders (unturned_herders.skips skipped)
  refine ⟨same.seats, fun seat herder here => ?_⟩
  rw [purchases_cons, if_neg (fun both => nomatch both.1)]
  exact same.cards seat herder here

end Balanced

theorem build_balanced {state : State} {generator drawn : Generator}
    (built : setup.build generator = .ok (state, drawn)) :
    Balanced setup ([] : List (Call State Action Rejection Request)) state where
  seats := congrArg Round.players (build_round built).2
  cards _ herder here := by
    have dealt := ((build_eq_ok built).2.2.2 herder (SeatMap.mem_of_get here)).2.2
    simpa [purchases] using dealt

theorem counts_balanced (setup : Setup) :
    Counts (upkeep (noService : Service State Action Empty)) (State.InTurn setup)
      (Balanced setup) where
  performs := Balanced.perform
  skips balanced skipped _ := balanced.skip skipped
  endsTurn balanced ended := balanced.of_herders (unturned_herders.endsTurn ended)
  serves := by
    intro play after request events calls inTurn balanced served
    cases request with
    | saveAndLoad =>
        cases served
        refine .inr ?_
        rw [Play.saveAndLoad, inTurn.loads]
        exact ⟨balanced, rfl⟩
    | finishTurn =>
        obtain ⟨⟨after, event, next⟩, finished, result⟩ := bind_eq_ok.mp served
        have same := unturned_herders.finishes finished
        obtain ⟨game, _, rfl, _, _⟩ := Play.finishTurn_cases finished
        cases result
        exact .inr ⟨balanced.of_herders same, rfl⟩
    | own request => cases request

theorem run_balanced {game : State} {seed drawn : Generator} (generator : Generator)
    {commands : List (Command Action (Upkeep Empty))}
    {session : Session State Action Rejection (Upkeep Empty)} (admitted : setup.Admitted)
    (built : setup.build seed = .ok (game, drawn))
    (ran : Session.run (upkeep noService) commands (.start game generator) = .ok session) :
    Balanced setup session.inEffect session.play.game := by
  -- that the game is one that play can reach tells what loading its save gives
  let invariant (session : Session State Action Rejection (Upkeep Empty)) : Prop :=
    session.play.Keeps (State.InTurn setup) ∧
      Agrees (Balanced setup) session.play session.inEffect
  have begun : invariant (.start game generator) :=
    ⟨.start (build_inTurn admitted built), .fresh rfl (build_balanced built)⟩
  have preserves : ∀ command session next, invariant session →
      Session.step (upkeep noService) command session = .ok next → invariant next := by
    rintro command session next ⟨keeps, agreeing⟩ stepped
    have ran : session.run (upkeep noService) [command] = .ok next := by
      rw [Session.run, stepped]
      rfl
    exact ⟨Session.run_keeps (State.upheld setup) (State.upkeep_respects setup) keeps ran,
      agreeing.step (counts_balanced setup) keeps.here stepped⟩
  exact (Session.run_preserves invariant preserves begun ran).2.here

end TurnObligations.Trail
