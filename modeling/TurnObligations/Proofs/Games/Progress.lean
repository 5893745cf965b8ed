import Mathlib
import TurnObligations.Proofs.Bazaar.Size
import TurnObligations.Proofs.Bazaar.Winner
import TurnObligations.Proofs.Trail.Size

/-!
Players of either game always have something to do that works, and never work left over from before; a
bazaar that is won stays as it is.
-/

namespace TurnObligations

/-- From a new game on the trail, whatever is played, skipped, ended, taken back, saved and loaded, the
player of the turn faces one obligation, which opens the turn or is under way where the herder stands,
with cards in hand for every discard owed. Until the turns can no longer be counted, a skip or a move
that is offered succeeds, unless the trail is so long that no snapshot of the game could be taken. -/
theorem trail_never_stuck (setup : Trail.Setup) (game : Trail.State)
    (seed drawn generator : Generator) (commands : List (Command Trail.Action (Upkeep Empty)))
    (session : Session Trail.State Trail.Action Trail.Rejection (Upkeep Empty))
    (admitted : setup.Admitted) (built : setup.build seed = .ok (game, drawn))
    (ran : Session.run (upkeep noService) commands (.start game generator) = .ok session) :
    (∃ tree herder, session.play.game.Faces tree herder) ∧
      (8 * setup.trail.length ≤ Snapshot.sizeLimit →
        session.play.game.turn.toNat + 1 < UInt32.size →
        ∀ generator, session.play.CanGoOn generator) := by
  have keeps := Session.run_keeps (Trail.State.upheld setup) (Trail.State.upkeep_respects setup)
    (Play.Keeps.start (Trail.build_inTurn admitted built)) ran
  have inTurn := keeps.here
  refine ⟨inTurn.faces, fun roomy counts generator => ?_⟩
  have few : setup.trail.length < UInt64.size := by
    simp only [Snapshot.sizeLimit, UInt64.size] at roomy ⊢
    omega
  obtain ⟨taken, snapped⟩ := inTurn.fits roomy
  exact inTurn.canGoOn generator few counts snapped

theorem trail_never_stuck_crossing :
    ∃ game drawn, ∃ session : Session Trail.State Trail.Action Trail.Rejection (Upkeep Empty),
      Trail.Setup.standard.build (.ofSeed 1) = .ok (game, drawn) ∧
      Session.run (upkeep noService) [.endTurn, .perform .move] (.start game drawn) = .ok session ∧
      session.play.game.stack.obligations = Trail.Location.crossing.obligations ∧
      (∃ tree herder, session.play.game.Faces tree herder) ∧
      ∀ generator, session.play.CanGoOn generator := by
  obtain ⟨herders, drawn, built⟩ := Trail.build_standard (.ofSeed 1)
  have count : herders.count = 2 := congrArg Round.players (Trail.build_round built).2
  have fresh := (Trail.build_eq_ok built).2.2.2
  -- the shuffled cards stay unknown: nothing up to the crossing looks at them
  obtain ⟨first, second, rfl⟩ : ∃ first second, herders = ⟨[first, second]⟩ := by
    match herders, count with
    | ⟨[first, second]⟩, _ => exact ⟨first, second, rfl⟩
  obtain ⟨waiting, _⟩ := fresh first (by simp)
  obtain ⟨position, dollars, hand, deck, discard⟩ := first
  cases waiting
  let game : Trail.State := ⟨Trail.Location.standardTrail,
    ⟨[⟨none, dollars, hand, deck, discard⟩, second]⟩, ⟨0⟩, 0, .ofList [.mandatory .move]⟩
  have built : Trail.Setup.standard.build (.ofSeed 1) = .ok (game, drawn) := built
  obtain ⟨taken, snapped⟩ := (Trail.build_inTurn .standard built).fits (by decide)
  have arrives : (Play.perform Trail.Action.move (.start game) drawn).map
      (fun report : Report Trail.State Trail.Action Trail.Rejection TurnStatus =>
        (report.play.game.stack.obligations, report.play.game.turn)) =
      .ok (Trail.Location.crossing.obligations, 0) := by
    rw [Play.perform, show (Play.start game).game = game from rfl, snapped]
    rfl
  obtain ⟨report, performed, reached⟩ := map_eq_ok.mp arrives
  obtain ⟨asks, turn⟩ := Prod.mk.inj reached
  have called : Play.call (upkeep noService) (.perform Trail.Action.move) (.start game) drawn =
      .ok (report.withReply .status) := by
    rw [Play.call, performed]
    rfl
  have ran : Session.run (upkeep noService) [.endTurn, .perform .move] (.start game drawn) = .ok _ :=
    bind_eq_ok.mpr ⟨_, rfl, bind_eq_ok.mpr ⟨_, Session.step_eq_ok.mpr ⟨_, called, rfl⟩, rfl⟩⟩
  obtain ⟨faces, canGoOn⟩ := trail_never_stuck _ _ _ _ _ _ _ .standard built ran
  have counts : report.play.game.turn.toNat + 1 < UInt32.size := by
    rw [turn]
    decide
  exact ⟨game, drawn, _, built, ran, asks, faces, canGoOn (by decide) counts⟩

/-- From a new game in the bazaar, whatever is played, skipped, ended, released, taken back, saved and
loaded, the active merchant holds a card for every play left in the pool, and one to discard when that
is up next, so that no move is ever rejected for want of one. As long as nobody has won, until the turns
can no longer be counted, a skip or a move that is offered succeeds, unless places and starting cards
are so many that no snapshot of the game could be taken. -/
theorem bazaar_never_stuck (setup : Bazaar.Setup) (game : Bazaar.State) (generator : Generator)
    (commands : List (Command Bazaar.Action (Upkeep Bazaar.Request)))
    (session : Session Bazaar.State Bazaar.Action Bazaar.Rejection (Upkeep Bazaar.Request))
    (admitted : setup.Admitted) (built : setup.build = .ok game)
    (ran : Session.run (upkeep Bazaar.service) commands (.start game generator) = .ok session) :
    (∃ merchant, session.play.game.Backed merchant) ∧
      (∀ action generator report, session.play.perform action generator = .ok report →
        report.result ≠ .error (.rejected .noBonusCards)) ∧
      (8 * (setup.places.length + setup.bonusCards.length) ≤ Snapshot.sizeLimit →
        session.play.game.winner? = none → session.play.game.turn.toNat + 1 < UInt32.size →
        ∀ generator, session.play.CanGoOn generator) := by
  have keeps := Session.run_keeps (Bazaar.State.upheld setup) (Bazaar.State.upkeep_respects setup)
    (Play.Keeps.start (Bazaar.build_inTurn admitted built)) ran
  have inTurn := keeps.here
  refine ⟨inTurn.isBacked, ?_, fun roomy undecided counts generator => ?_⟩
  · intro action generator report performed rejected
    obtain ⟨consumed, after, drawn, accepted, executed⟩ := Play.perform_rejected performed rejected
    exact inTurn.has_cards accepted executed rfl
  · have few : setup.places.length < UInt64.size := by
      simp only [Snapshot.sizeLimit, UInt64.size] at roomy ⊢
      omega
    obtain ⟨taken, snapped⟩ := inTurn.fits roomy
    exact inTurn.canGoOn generator few undecided counts snapped

theorem bazaar_never_stuck_released :
    let setup := Bazaar.Setup.standard.withBonusCards [1, 2]
    ∃ game, ∃ session : Session Bazaar.State Bazaar.Action Bazaar.Rejection (Upkeep Bazaar.Request),
      setup.build = .ok game ∧
      Session.run (upkeep Bazaar.service) [.perform .playBonusCard,
        .extra (.own .releaseCurrent), .perform .move, .takeBack, .perform .move]
        (.start game (.ofSeed 1)) = .ok session ∧
      session.play.game.queue.length = 2 ∧ (∃ merchant, session.play.game.Backed merchant) ∧
      ∀ generator, session.play.CanGoOn generator := by
  intro setup
  have pending : (setup.build >>= fun game => (Session.run (upkeep Bazaar.service)
      [.perform .playBonusCard, .extra (.own .releaseCurrent), .perform .move, .takeBack,
        .perform .move] (.start game (.ofSeed 1)) : Except Fault
          (Session Bazaar.State Bazaar.Action Bazaar.Rejection (Upkeep Bazaar.Request)))).map
      (fun session => (session.play.game.queue.length, session.play.game.winner?,
        session.play.game.turn)) = .ok (2, none, 0) := by cbv
  obtain ⟨session, ran, reached⟩ := map_eq_ok.mp pending
  obtain ⟨game, built, ran⟩ := bind_eq_ok.mp ran
  obtain ⟨length, undecided, turn⟩ : session.play.game.queue.length = 2 ∧
      session.play.game.winner? = none ∧ session.play.game.turn = 0 := by
    simpa only [Prod.mk.injEq] using reached
  have counts : session.play.game.turn.toNat + 1 < UInt32.size := by
    rw [turn]
    decide
  obtain ⟨backed, _, canGoOn⟩ := bazaar_never_stuck setup game (.ofSeed 1) _ session
    (.withBonusCards _ .standard) built ran
  exact ⟨game, session, built, ran, length, backed, canGoOn (by decide) undecided counts⟩

section Won

open Bazaar

/-- From a new game in the bazaar, whatever is played, skipped, ended, taken back and released, nobody
has more rubies than it takes to win, one merchant at most has as many, and counting one more never
breaks down. Once somebody has won, nothing changes whatever else is called; every move that the
obligations accept is rejected because the game is over and every other is refused, no skip and no end
of turn is permitted, and there is nothing to take back, unless places and starting cards are so many
that no snapshot of the game could be taken. -/
theorem won_stays_won (setup : Setup) (game : State) (generator : Generator)
    (commands : List (Command Action Request)) (session : Session State Action Rejection Request)
    (admitted : setup.Admitted) (built : setup.build = .ok game)
    (ran : Session.run service commands (.start game generator) = .ok session) :
    State.Contested setup.rules.rubiesToWin session.play.game.merchants ∧
      (∀ queue generator, ∃ executed,
        State.execute .buyRuby { session.play.game with queue } generator = .ok executed) ∧
      ∀ winner, session.play.game.winner? = some winner →
        (∀ more reached, session.run service more = .ok reached →
          reached.play = session.play ∧ reached.generator = session.generator) ∧
        (8 * (setup.places.length + setup.bonusCards.length) ≤ Snapshot.sizeLimit →
          State.Frozen winner session.play ∧
            ∀ more, ∃ reached, session.run service more = .ok reached) := by
  have turned := State.run_turned (build_turned admitted built) ran
  obtain ⟨inTurn, contested⟩ := State.contested_of_turned turned
  refine ⟨contested, ?_, fun winner won => ⟨?_, fun roomy => ?_⟩⟩
  · intro queue generator
    exact State.buyRuby_returns generator (inTurn.kept.placed.withQueue queue)
  · intro more reached
    exact State.run_stays turned won
  · have frozen := State.frozen_of_turned roomy turned won
    refine ⟨frozen, fun more => ?_⟩
    obtain ⟨reached, returns, _⟩ := Session.run_inert frozen.inert more
    exact ⟨reached, returns⟩

theorem won_stays_won_bought :
    let setup : Setup := ⟨2, 12, [], ⟨12, 1, 5⟩, [.jeweler]⟩
    ∃ game, ∃ session : Session State Action Rejection Request,
      setup.build = .ok game ∧
      Session.run service [.perform .move, .perform .buyRuby, .takeBack, .perform .move]
        (.start game (.ofSeed 1)) = .ok session ∧
      session.play.game.winner? = some ⟨0⟩ ∧ State.Frozen ⟨0⟩ session.play := by
  intro setup
  have won : (setup.build >>= fun game => (Session.run service
      [.perform .move, .perform .buyRuby, .takeBack, .perform .move] (.start game (.ofSeed 1)) :
        Except Fault (Session State Action Rejection Request))).map
      (fun session => session.play.game.winner?) = .ok (some ⟨0⟩) := by cbv
  obtain ⟨session, ran, won⟩ := map_eq_ok.mp won
  obtain ⟨game, built, ran⟩ := bind_eq_ok.mp ran
  have sooner : (Setup.standard.withLira 12).withRubiesToWin 1 =
      .ok ⟨2, 12, [], ⟨12, 1, 5⟩, Place.standardBazaar⟩ := rfl
  have shorter : Setup.withPlaces [.jeweler] ⟨2, 12, [], ⟨12, 1, 5⟩, Place.standardBazaar⟩ =
      .ok setup := rfl
  have admitted : setup.Admitted :=
    .withPlaces (.withRubiesToWin (.withLira 12 .standard) sooner) shorter
  obtain ⟨_, _, frozen⟩ := won_stays_won setup game (.ofSeed 1) _ session admitted built ran
  exact ⟨game, session, built, ran, won, ((frozen ⟨0⟩ won).2 (by decide)).1⟩

end Won

end TurnObligations
