import Mathlib
import TurnObligations.Proofs.Bazaar.Safety
import TurnObligations.Proofs.Trail.Safety

/-!
No call on either game breaks down, as long as balances and turns can still be counted.
-/

namespace TurnObligations

/-- Whatever is done with a game that is new, or loaded from any save that is accepted: every call comes
back, and not because an earlier state could not be brought back, while every balance has room for what
one move earns and the turns for one more. Moves and skips begin by taking a snapshot, whose bytes have
to stay below the limit there is for one. -/
theorem every_call_returns :
    (∀ (start : Trail.State) (generator : Generator)
      (commands : List (Command Trail.Action (Upkeep Empty)))
      (session : Session Trail.State Trail.Action Trail.Rejection (Upkeep Empty)),
      GatedGame.Begun Trail.State.New start →
      Session.run (upkeep noService) commands (.start start generator) = .ok session →
      (∀ herder ∈ session.play.game.herders.seats, herder.dollars.toNat + 255 < UInt32.size) →
      session.play.game.turn.toNat + 1 < UInt32.size →
      ∀ (command : Command Trail.Action (Upkeep Empty)) generator,
        (command.snaps = true →
          (Snapshot.write (Storable.toDatum session.play.game)).length < Snapshot.sizeLimit) →
        session.play.Returns (upkeep noService) command generator) ∧
    (∀ (start : Bazaar.State) (generator : Generator)
      (commands : List (Command Bazaar.Action (Upkeep Bazaar.Request)))
      (session : Session Bazaar.State Bazaar.Action Bazaar.Rejection (Upkeep Bazaar.Request)),
      GatedGame.Begun Bazaar.State.New start →
      Session.run (upkeep Bazaar.service) commands (.start start generator) = .ok session →
      (∀ merchant ∈ session.play.game.merchants.seats, merchant.lira.toNat + 255 < UInt32.size) →
      session.play.game.turn.toNat + 1 < UInt32.size →
      ∀ (command : Command Bazaar.Action (Upkeep Bazaar.Request)) generator,
        (command.snaps = true →
          (Snapshot.write (Storable.toDatum session.play.game)).length < Snapshot.sizeLimit) →
        session.play.Returns (upkeep Bazaar.service) command generator) := by
  constructor
  · intro start generator commands session begun ran poor counts command generator small
    have keeps := Session.run_keeps Trail.State.upheld_intact
      (GatedGame.upkeep_keeps Trail.State.upheld_intact nofun)
      (Play.Keeps.start (begun.intact fun _ => Trail.State.New.validate)) ran
    have startable := Trail.State.Placed.startable keeps.here.placed counts
    exact Play.call_returns generator (Trail.State.sturdy_of_intact keeps.here poor counts) keeps
      (fun snaps => Snapshot.encode_returns (small snaps)) (upkeep_returns startable nofun)
  · intro start generator commands session begun ran poor counts command generator small
    have keeps := Session.run_keeps Bazaar.State.upheld_intact
      (GatedGame.upkeep_keeps Bazaar.State.upheld_intact Bazaar.State.service_keeps)
      (Play.Keeps.start (begun.intact fun _ => Bazaar.State.New.validate)) ran
    have startable := Bazaar.State.Placed.startable keeps.here.placed counts
    have own (request : Bazaar.Request) :
        ∃ answer, Bazaar.service request session.play = .ok answer := by
      cases request
      exact ⟨_, rfl⟩
    exact Play.call_returns generator (Bazaar.State.sturdy_of_intact keeps.here poor counts) keeps
      (fun snaps => Snapshot.encode_returns (small snaps)) (upkeep_returns startable own)

theorem every_call_returns_opening :
    (∃ game drawn, ∃ session : Session Trail.State Trail.Action Trail.Rejection (Upkeep Empty),
      Trail.Setup.standard.build (.ofSeed 1) = .ok (game, drawn) ∧
      Session.run (upkeep noService) [.endTurn, .takeBack] (.start game drawn) = .ok session ∧
      ∀ generator, session.play.Returns (upkeep noService) (.perform .move) generator) ∧
    (∃ game loaded, ∃ session :
      Session Bazaar.State Bazaar.Action Bazaar.Rejection (Upkeep Bazaar.Request),
      Bazaar.Setup.standard.build = .ok game ∧
      Saved.ofText? (Storage.toText game) = .ok loaded ∧
      Session.run (upkeep Bazaar.service) [.perform .move, .endTurn, .extra (.own .releaseCurrent)]
        (.start loaded (.ofSeed 1)) = .ok session ∧
      ∀ generator, session.play.Returns (upkeep Bazaar.service) (.perform .move) generator) := by
  constructor
  · obtain ⟨herders, drawn, built⟩ := Trail.build_standard (.ofSeed 1)
    have refused : (Session.run (upkeep noService) [.endTurn, .takeBack] (.start
        ⟨Trail.Location.standardTrail, herders, ⟨0⟩, 0, .ofList [.mandatory .move]⟩ drawn) :
          Except Fault (Session Trail.State Trail.Action Trail.Rejection (Upkeep Empty))).map
        (fun session => session.play.game) =
        .ok ⟨Trail.Location.standardTrail, herders, ⟨0⟩, 0, .ofList [.mandatory .move]⟩ := rfl
    obtain ⟨session, ran, stays⟩ := map_eq_ok.mp refused
    have stays : session.play.game = _ := stays
    obtain ⟨taken, snapped⟩ := (Trail.build_inTurn .standard built).fits (by decide)
    refine ⟨_, _, session, built, ran, fun generator => ?_⟩
    refine every_call_returns.1 _ drawn _ session (.new ⟨_, _, _, .standard, built⟩) ran ?_ ?_ _
      generator ?_
    · intro herder member
      rw [stays] at member
      rw [((Trail.build_eq_ok built).2.2.2 herder member).2.1]
      decide
    · rw [stays]
      show (0 : UInt32).toNat + 1 < UInt32.size
      decide
    · rw [stays]
      exact fun _ => Snapshot.length_write_of_encode snapped
  · have reached : (Bazaar.Setup.standard.build >>= fun game => (Session.run
        (upkeep Bazaar.service) [.perform .move, .endTurn, .extra (.own .releaseCurrent)]
        (.start game (.ofSeed 1)) : Except Fault
          (Session Bazaar.State Bazaar.Action Bazaar.Rejection (Upkeep Bazaar.Request)))).map
        (fun session => (session.play.game.merchants.seats.map Bazaar.Merchant.lira,
          session.play.game.turn)) = .ok ([2, 2], 0) := by cbv
    obtain ⟨session, ran, stands⟩ := map_eq_ok.mp reached
    obtain ⟨game, built, ran⟩ := bind_eq_ok.mp ran
    obtain ⟨lira, turn⟩ := Prod.mk.inj stands
    have inTurn := Bazaar.build_inTurn .standard built
    obtain ⟨taken, snapped⟩ := (Session.run_keeps (Bazaar.State.upheld _)
      (Bazaar.State.upkeep_respects _) (Play.Keeps.start inTurn) ran).here.fits (by decide)
    refine ⟨game, game, session, built, inTurn.loads, ran, fun generator => ?_⟩
    refine every_call_returns.2 game (.ofSeed 1) _ session (.loaded inTurn.loads) ran ?_ ?_ _
      generator fun _ => Snapshot.length_write_of_encode snapped
    · intro merchant member
      have two : merchant.lira ∈ [2, 2] := lira ▸ List.mem_map_of_mem member
      simp only [List.mem_cons, List.not_mem_nil, or_false, or_self] at two
      rw [two]
      decide
    · rw [turn]
      decide

end TurnObligations
