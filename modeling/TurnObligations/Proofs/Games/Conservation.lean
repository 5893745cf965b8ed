import Mathlib
import TurnObligations.Proofs.Bazaar.Worth
import TurnObligations.Proofs.Trail.Cards

/-!
Cards on the trail are neither lost nor duplicated, and the books of the bazaar balance.
-/

namespace TurnObligations

/-- Whatever is played, skipped, ended, taken back, saved and loaded from a new game on the trail, each
herder has the cards of the starting deck and one of value three for each purchase of cattle that has
not been taken back. A move that goes through leaves the trail and every other herder as they are. -/
theorem trail_cards_conserved :
    (∀ (setup : Trail.Setup) (game : Trail.State) (seed drawn generator : Generator)
      (commands : List (Command Trail.Action (Upkeep Empty)))
      (session : Session Trail.State Trail.Action Trail.Rejection (Upkeep Empty)),
      setup.Admitted → setup.build seed = .ok (game, drawn) →
      Session.run (upkeep noService) commands (.start game generator) = .ok session →
      session.play.game.herders.count = setup.players ∧
      ∀ seat herder, session.play.game.herders.get seat = .ok herder →
        (herder.hand ++ herder.deck ++ herder.discard).Perm
          ([1, 1, 1, 2, 2, 2, 3, 4] ++
            List.replicate (Trail.purchases seat session.inEffect) 3)) ∧
    (∀ (play : Play Trail.State) (action : Trail.Action) (generator : Generator)
      (report : Report Trail.State Trail.Action Trail.Rejection TurnStatus) (status : TurnStatus),
      play.perform action generator = .ok report → report.result = .ok status →
      report.play.game.trail = play.game.trail ∧
      ∀ seat, seat ≠ play.game.current →
        report.play.game.herders.get seat = play.game.herders.get seat) := by
  constructor
  · intro setup game seed drawn generator commands session admitted built ran
    have balanced := Trail.run_balanced generator admitted built ran
    refine ⟨balanced.seats, fun seat herder here => ?_⟩
    rw [List.append_assoc]
    exact balanced.cards seat herder here
  · intro play action generator report status performed happened
    obtain ⟨trail, herder, next, _, herders, _⟩ := Trail.perform_herders performed happened
    refine ⟨trail, fun seat apart => ?_⟩
    rw [herders, SeatMap.get_set_of_ne apart]

theorem trail_cards_conserved_again :
    let setup : Trail.Setup := { Trail.Setup.standard with trail := [.ranch] }
    ∃ game drawn, ∃ session : Session Trail.State Trail.Action Trail.Rejection (Upkeep Empty),
      setup.build (.ofSeed 1) = .ok (game, drawn) ∧
      Session.run (upkeep noService) [.perform .move, .perform .buyCattle, .takeBack,
        .perform .buyCattle] (.start game drawn) = .ok session ∧
      ∃ herder, session.play.game.herders.get ⟨0⟩ = .ok herder ∧
        (herder.hand ++ herder.deck ++ herder.discard).Perm [1, 1, 1, 2, 2, 2, 3, 4, 3] := by
  intro setup
  have accepted : Trail.Setup.standard.withTrail [.ranch] = .ok setup := rfl
  have admitted : setup.Admitted := .withTrail .standard accepted
  -- the shuffled cards stay unknown: nothing here looks at them
  have deals (seed : Generator) : ∃ hand deck other drawn, setup.build seed =
      .ok (⟨[.ranch], ⟨[⟨none, 4, hand, deck, []⟩, other]⟩, ⟨0⟩, 0, .ofList [.mandatory .move]⟩,
        drawn) := ⟨_, _, _, _, rfl⟩
  obtain ⟨hand, deck, other, drawn, built⟩ := deals (.ofSeed 1)
  let game : Trail.State := ⟨[.ranch], ⟨[⟨none, 4, hand, deck, []⟩, other]⟩, ⟨0⟩, 0,
    .ofList [.mandatory .move]⟩
  let ranch : Trail.State := { game with
    herders := ⟨[⟨some 0, 4, hand, deck, []⟩, other]⟩
    stack := .ofList Trail.Location.ranch.obligations }
  let bought : Trail.State := { ranch with
    herders := ⟨[⟨some 0, 1, hand, deck, [3]⟩, other]⟩
    stack := .ofList [.any [.choice [.repeated 0 2 (.mandatory .buyCattle) none 1]] (some 0)] }
  have begun : (Play.start game).Keeps (Trail.State.InTurn setup) :=
    .start (Trail.build_inTurn admitted built)
  obtain ⟨taken, snapped⟩ : ∃ taken, TurnGame.snapshot game = .ok taken :=
    begun.here.fits (by decide)
  have moves : Play.perform .move (.start game) drawn = .ok (⟨⟨ranch, ⟨[taken]⟩⟩, drawn,
      [.performed ⟨0⟩ .move 1 true], .ok .continues⟩ :
        Report Trail.State Trail.Action Trail.Rejection TurnStatus) :=
    bind_eq_ok.mpr ⟨taken, snapped, rfl⟩
  have arrived : ranch.InTurn setup :=
    (Play.perform_turned (Trail.State.upheld setup) begun moves).elim (·.here) (·.here)
  obtain ⟨later, snapped'⟩ : ∃ later, TurnGame.snapshot ranch = .ok later :=
    arrived.fits (by decide)
  have buys : Play.perform .buyCattle ⟨ranch, ⟨[taken]⟩⟩ drawn =
      .ok (⟨⟨bought, ⟨[later, taken]⟩⟩, drawn, [.performed ⟨0⟩ .buyCattle 0 true], .ok .continues⟩ :
        Report Trail.State Trail.Action Trail.Rejection TurnStatus) :=
    bind_eq_ok.mpr ⟨later, snapped', by cbv⟩
  have back : Play.takeBack ⟨bought, ⟨[later, taken]⟩⟩ = (⟨ranch, ⟨[taken]⟩⟩, .ok true) := by
    simp only [Play.takeBack, UndoLog.pop?, LawfulGame.restores snapped' bought]
  have called : Play.call (upkeep noService) .takeBack ⟨bought, ⟨[later, taken]⟩⟩ drawn =
      .ok (⟨⟨ranch, ⟨[taken]⟩⟩, drawn, [], .ok (.undone true)⟩ :
        Report Trail.State Trail.Action Trail.Rejection Reply) := by
    simp only [Play.call, back]
    rfl
  have ran : Session.run (upkeep noService) [.perform .move, .perform .buyCattle, .takeBack,
      .perform .buyCattle] (.start game drawn) = .ok _ :=
    bind_eq_ok.mpr ⟨_, Session.step_eq_ok.mpr ⟨_, bind_eq_ok.mpr ⟨_, moves, rfl⟩, rfl⟩,
      bind_eq_ok.mpr ⟨_, Session.step_eq_ok.mpr ⟨_, bind_eq_ok.mpr ⟨_, buys, rfl⟩, rfl⟩,
        bind_eq_ok.mpr ⟨_, Session.step_eq_ok.mpr ⟨_, called, rfl⟩,
          bind_eq_ok.mpr ⟨_, Session.step_eq_ok.mpr ⟨_, bind_eq_ok.mpr ⟨_, buys, rfl⟩, rfl⟩,
            rfl⟩⟩⟩⟩
  obtain ⟨_, cards⟩ := trail_cards_conserved.1 _ _ _ _ _ _ _ admitted built ran
  exact ⟨game, drawn, _, built, ran, _, rfl, cards ⟨0⟩ _ rfl⟩

section Books

open Bazaar

/-- In every state that calls lead to from a new game in the bazaar, nobody has more goods than there is
room for. A move that goes through there leaves rules, places and every other merchant as they are, and
what it adds to the worth of its own merchant is what the move tells; taking goods never costs. No skip,
end of turn or call that fails changes any merchant. -/
theorem bazaar_books_balance (setup : Setup) (game : State) (generator : Generator)
    (commands : List (Command Action (Upkeep Request)))
    (session : Session State Action Rejection (Upkeep Request))
    (admitted : setup.Admitted) (built : setup.build = .ok game)
    (ran : Session.run (upkeep service) commands (.start game generator) = .ok session) :
    let before := session.play.game
    before.rules = setup.rules ∧ before.places = setup.places ∧
      (∀ merchant ∈ before.merchants.seats, merchant.goods ≤ before.rules.goodsCapacity) ∧
      (∀ action generator report status, session.play.perform action generator = .ok report →
        report.result = .ok status →
        report.play.game.rules = before.rules ∧ report.play.game.places = before.places ∧
        report.play.game.merchants.count = before.merchants.count ∧
        (∀ seat, seat ≠ before.current →
          report.play.game.merchants.get seat = before.merchants.get seat) ∧
        ∃ merchant next gain, before.merchants.get before.current = .ok merchant ∧
          report.play.game.merchants.get before.current = .ok next ∧
          State.Earns before.rules generator merchant action gain ∧
          next.worth before.rules = merchant.worth before.rules + gain ∧
          (action = .takeGoods → 0 ≤ gain)) ∧
      (∀ generator report, session.play.skip generator = .ok report →
        report.play.game.merchants = before.merchants) ∧
      (∀ generator report, session.play.endTurn generator = .ok report →
        report.play.game.merchants = before.merchants) ∧
      (∀ after event seat, session.play.finishTurn = .ok (after, event, seat) →
        after.game.merchants = before.merchants) ∧
      (∀ action generator report error, session.play.perform action generator = .ok report →
        report.result = .error error → report.play.game.merchants = before.merchants) := by
  intro before
  have keeps := run_stocked admitted built ran
  obtain ⟨inTurn, stocked⟩ := keeps.here
  refine ⟨inTurn.kept.rules, inTurn.kept.places, stocked, ?_, ?_, ?_, ?_, ?_⟩
  · intro action generator report status performed happened
    obtain ⟨rules, places, merchant, next, outcome, active, merchants, does⟩ :=
      State.perform_merchants performed happened
    obtain ⟨gain, earns, balance⟩ := does.earns
    refine ⟨rules, places, by rw [merchants, SeatMap.count_set], ?_, merchant, next, gain, active,
      ?_, earns, balance, ?_⟩
    · intro seat apart
      rw [merchants, SeatMap.get_set_of_ne apart]
    · rw [merchants]
      exact SeatMap.get_set active
    · rintro rfl
      exact earns.takes (stocked merchant (SeatMap.mem_of_get active))
  · exact fun _ _ => State.unturned_merchants.skips
  · exact fun _ _ => State.unturned_merchants.endsTurn
  · exact fun _ _ _ => State.unturned_merchants.finishes
  · intro action generator report error performed failed
    rw [Play.perform_failed performed failed]

theorem bazaar_books_balance_filled :
    let setup : Setup := ⟨2, 2, [3, 1], ⟨12, 3, 1⟩, [.warehouse]⟩
    ∃ game, ∃ session : Session State Action Rejection (Upkeep Request),
      ∃ report : Report State Action Rejection TurnStatus,
      setup.build = .ok game ∧
      Session.run (upkeep service)
        [.perform .move, .perform .playBonusCard, .extra (.own .releaseCurrent)]
        (.start game (.ofSeed 1)) = .ok session ∧
      session.play.perform .takeGoods session.generator = .ok report ∧
      report.result = .ok (.ended ⟨1⟩) ∧
      ∃ merchant next, session.play.game.merchants.get ⟨0⟩ = .ok merchant ∧
        report.play.game.merchants.get ⟨0⟩ = .ok next ∧
        next.worth setup.rules = merchant.worth setup.rules + 3 := by
  intro setup
  have reached : (setup.build >>= fun game => (Session.run (upkeep service)
      [.perform .move, .perform .playBonusCard, .extra (.own .releaseCurrent)]
      (.start game (.ofSeed 1)) :
        Except Fault (Session State Action Rejection (Upkeep Request))) >>= fun session =>
      session.play.perform .takeGoods session.generator >>= fun report =>
      pure (report.result, session.play.game.rules, session.play.game.current,
        session.play.game.merchants.get ⟨0⟩)) =
      .ok (.ok (.ended ⟨1⟩), ⟨12, 3, 1⟩, ⟨0⟩, .ok ⟨some 0, 5, 0, 0, [1]⟩) := by cbv
  obtain ⟨game, built, reached⟩ := bind_eq_ok.mp reached
  obtain ⟨session, ran, reached⟩ := bind_eq_ok.mp reached
  obtain ⟨report, performed, reached⟩ := bind_eq_ok.mp reached
  simp only [pure, Except.pure, Except.ok.injEq, Prod.mk.injEq] at reached
  obtain ⟨happened, rules, mover, holds⟩ := reached
  have smaller : (((Setup.standard.withBonusCards [3, 1]).withGoodsCapacity 1) >>=
      Setup.withPlaces [.warehouse]) = .ok setup := rfl
  obtain ⟨between, fewer, placed⟩ := bind_eq_ok.mp smaller
  have admitted : setup.Admitted :=
    .withPlaces (.withGoodsCapacity (.withBonusCards [3, 1] .standard) fewer) placed
  obtain ⟨_, _, _, moves, _⟩ :=
    bazaar_books_balance setup game (.ofSeed 1) _ session admitted built ran
  obtain ⟨_, _, _, _, merchant, next, gain, here, after, earns, balance, _⟩ :=
    moves .takeGoods _ report _ performed happened
  rw [mover] at here after
  rw [rules] at earns balance
  cases holds.symm.trans here
  cases earns
  exact ⟨game, session, report, built, ran, performed, happened, _, next, holds, after, balance⟩

end Books

end TurnObligations
