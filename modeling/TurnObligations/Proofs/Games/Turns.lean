import Mathlib
import TurnObligations.Proofs.Bazaar.Safety
import TurnObligations.Proofs.Trail.Safety
import TurnObligations.Proofs.Turn.Round

/-!
Turns on the trail and in the bazaar: what an observer is told of them, and whose turn comes round in a
game that has been loaded.
-/

namespace TurnObligations

/-- From a new game of either kind on, whatever calls are made, accepted or refused, turns are told one
after the other and each by the seat that is due, the game counts them and knows whose turn it is, and
a turn that ends leaves the next seat with its opening obligations and nothing to take back. -/
theorem turn_protocol :
    (∀ (setup : Trail.Setup) (game : Trail.State) (seed drawn generator : Generator)
      (commands : List (Command Trail.Action Empty))
      (session : Session Trail.State Trail.Action Trail.Rejection Empty),
      setup.build seed = .ok (game, drawn) →
      Session.run noService commands (.start game generator) = .ok session →
      session.FollowsProtocol setup.players) ∧
    (∀ (setup : Bazaar.Setup) (game : Bazaar.State) (generator : Generator)
      (commands : List (Command Bazaar.Action Bazaar.Request))
      (session : Session Bazaar.State Bazaar.Action Bazaar.Rejection Bazaar.Request),
      setup.build = .ok game →
      Session.run Bazaar.service commands (.start game generator) = .ok session →
      session.FollowsProtocol setup.players) := by
  constructor
  · intro setup game seed drawn generator commands session built ran
    obtain ⟨⟨occupied, few⟩, opening⟩ := Trail.build_round built
    have keeps : KeepsTurn (noService : Service Trail.State Trail.Action Empty) := nofun
    exact ((Session.InTurn.start opening generator).run occupied few keeps ran).followsProtocol
  · intro setup game generator commands session built ran
    obtain ⟨⟨occupied, few⟩, opening⟩ := Bazaar.build_round built
    have keeps := Bazaar.State.service_keepsTurn
    exact ((Session.InTurn.start opening generator).run occupied few keeps ran).followsProtocol

theorem turn_protocol_opening :
    let warehouse : Bazaar.Setup := { Bazaar.Setup.standard with places := [.warehouse] }
    let generator := Generator.ofSeed 1
    (∃ game drawn, ∃ session : Session Trail.State Trail.Action Trail.Rejection Empty,
      Trail.Setup.standard.build generator = .ok (game, drawn) ∧
      Session.run noService [.endTurn, .takeBack] (.start game drawn) = .ok session ∧
      session.play.game.turn = 0 ∧ turnsEnded session.events = 0) ∧
    (∃ game, ∃ session : Session Bazaar.State Bazaar.Action Bazaar.Rejection Bazaar.Request,
      warehouse.build = .ok game ∧
      Session.run Bazaar.service [.skip, .perform .move, .perform .takeGoods, .takeBack]
        (.start game generator) = .ok session ∧
      session.play.game.turn = 1 ∧ turnsEnded session.events = 1 ∧
      session.play.game.current = .ofTurn 2 1) := by
  intro warehouse generator
  constructor
  · obtain ⟨herders, drawn, built⟩ := Trail.build_standard generator
    have turn : (Session.run noService [.endTurn, .takeBack] (.start
        ⟨Trail.Location.standardTrail, herders, ⟨0⟩, 0, .ofList [.mandatory .move]⟩ drawn) :
          Except Fault (Session Trail.State Trail.Action Trail.Rejection Empty)).map
        (fun session => session.play.game.turn) = .ok 0 := rfl
    obtain ⟨session, ran, turn⟩ := map_eq_ok.mp turn
    have protocol := turn_protocol.1 _ _ _ _ _ _ session built ran
    exact ⟨_, _, session, built, ran, turn, protocol.counted.trans (congrArg UInt32.toNat turn)⟩
  · have turn : (warehouse.build >>= fun game => (Session.run Bazaar.service
        [.skip, .perform .move, .perform .takeGoods, .takeBack] (.start game generator) :
          Except Fault (Session Bazaar.State Bazaar.Action Bazaar.Rejection Bazaar.Request))).map
        (fun session => session.play.game.turn) = .ok 1 := by cbv
    obtain ⟨session, ran, turn⟩ := map_eq_ok.mp turn
    obtain ⟨game, built, ran⟩ := bind_eq_ok.mp ran
    have protocol := turn_protocol.2 warehouse game generator _ session built ran
    have turns : (TableGame.round session.play.game).turn.toNat = 1 := congrArg UInt32.toNat turn
    exact ⟨game, session, built, ran, turn, protocol.counted.trans turns, turns ▸ protocol.seat⟩

/-! ### Turns that go round -/

theorem Trail.State.rotates : Play.Rotates Trail.State.Placed where
  seated _ placed := placed.seated
  starts _ placed counts := placed.startable counts
  keeps _ _ placed started := (placed.withStack .empty).opened started

theorem Bazaar.State.rotates : Play.Rotates Bazaar.State.Placed where
  seated _ placed := placed.seated
  starts _ placed counts := placed.startable counts
  keeps _ _ placed started := (placed.withQueue .empty).opened rfl started

/-- From any save that is accepted and whoever is to play, as many turn ends as there are seats give each
of them the turn once and then it is back, exactly if the seats are no more than 256 and the turns can be
counted. Of more seats the turn goes round the first 256. -/
theorem turns_go_round (text : String) :
    (∀ state : Trail.State, Saved.ofText? text = .ok state →
      ((Play.start state).GoesRound state.herders.count ↔ state.herders.count ≤ 256 ∧
        state.turn.toNat + state.herders.count < UInt32.size) ∧
      (state.turn.toNat + min state.herders.count 256 < UInt32.size →
        (Play.start state).GoesRound (min state.herders.count 256))) ∧
    (∀ state : Bazaar.State, Saved.ofText? text = .ok state →
      ((Play.start state).GoesRound state.merchants.count ↔ state.merchants.count ≤ 256 ∧
        state.turn.toNat + state.merchants.count < UInt32.size) ∧
      (state.turn.toNat + min state.merchants.count 256 < UInt32.size →
        (Play.start state).GoesRound (min state.merchants.count 256))) := by
  constructor
  · intro state accepted
    have placed : (Play.start state).game.Placed := (GatedGame.intact_of_accepted accepted).placed
    exact ⟨Play.goesRound_iff Trail.State.rotates placed,
      Play.goesRound_reached Trail.State.rotates placed⟩
  · intro state accepted
    have placed : (Play.start state).game.Placed :=
      (GatedGame.intact_of_accepted accepted).placed
    exact ⟨Play.goesRound_iff Bazaar.State.rotates placed,
      Play.goesRound_reached Bazaar.State.rotates placed⟩

theorem turns_go_round_few :
    (let herder : Trail.Herder := ⟨none, 4, [], [], []⟩
     let state : Trail.State := ⟨[.station], ⟨[herder, herder, herder]⟩, ⟨1⟩, 0, .empty⟩
     Saved.ofText? (Storage.toText state) = .ok state ∧ (Play.start state).GoesRound 3) ∧
    (let merchant : Bazaar.Merchant := ⟨none, 2, 0, 0, []⟩
     let state : Bazaar.State :=
      ⟨⟨12, 3, 1⟩, [.warehouse], ⟨[merchant, merchant]⟩, ⟨0⟩, 4294967293, .empty⟩
     Saved.ofText? (Storage.toText state) = .ok state ∧ (Play.start state).GoesRound 2) := by
  constructor
  · intro herder state
    have loaded : Saved.ofText? (Storage.toText state) = .ok state :=
      (Saved.ofText?_gated state (by decide)).accepted.mpr rfl
    exact ⟨loaded, ((turns_go_round _).1 state loaded).1.mpr (by decide)⟩
  · intro merchant state
    have loaded : Saved.ofText? (Storage.toText state) = .ok state :=
      (Saved.ofText?_gated state (by decide)).accepted.mpr rfl
    exact ⟨loaded, ((turns_go_round _).2 state loaded).1.mpr (by decide)⟩

/-- A save with 257 herders is accepted, but no seat number is left for the last of them, so that the turn
does not go round. -/
theorem crowded_trail_leaves_out :
    let herder : Trail.Herder := ⟨none, 4, [], [], []⟩
    let state : Trail.State := ⟨[.station], ⟨List.replicate 257 herder⟩, ⟨255⟩, 0, .empty⟩
    Saved.ofText? (Storage.toText state) = .ok state ∧ state.herders.count = 257 ∧
      ¬(Play.start state).GoesRound 257 := by
  intro herder state
  have count : state.herders.count = 257 := List.length_replicate
  have placed : state.Placed := by
    refine ⟨by rw [count]; decide, by simp [state], fun other member => ?_⟩
    rw [List.eq_of_mem_replicate member]
    rfl
  have shallow : (Storage.toJson state).depth ≤ Json.maxDepth := by
    have whole := Trail.depth_state state
    have none : (Storage.toJson state.stack).depth ≤ 20 := by decide
    simp only [Json.maxDepth]
    omega
  have stackValid : state.stack.Valid := fun _ member => absurd member List.not_mem_nil
  have valid : state.validate = .ok () :=
    (Trail.State.validate_eq_ok_iff state).mpr ⟨stackValid, placed⟩
  refine ⟨(Saved.ofText?_gated state shallow).accepted.mpr valid, count, fun round => ?_⟩
  have here : (Play.start state).game.Placed := placed
  have all : (Play.start state).GoesRound state.herders.count := count ▸ round
  have few : state.herders.count ≤ UInt8.size :=
    ((Play.goesRound_iff Trail.State.rotates here).mp all).1
  rw [count] at few
  exact absurd few (by decide)

end TurnObligations
