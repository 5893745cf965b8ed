import Mathlib
import TurnObligations.Proofs.Bazaar.Size
import TurnObligations.Proofs.Trail.Size
import TurnObligations.Proofs.Turn.Resume
import TurnObligations.Scripted.Game

/-!
Saves of either game. Snapshots lose nothing and end where they end, and a game may be saved at any
point and taken up again from there.
-/

namespace TurnObligations

namespace Snapshot

/-- There is a snapshot of every value that is not too large for one, and whatever bytes follow the
snapshot, the value is read off it and none of these bytes with it. -/
structure SelfDelimiting (α : Type) [Storable α] : Prop where
  encodes : ∀ value : α, (write (Storable.toDatum value)).length < sizeLimit →
    ∃ snapshot, encode value = .ok snapshot
  decodes : ∀ (value : α) (snapshot : Snapshot), encode value = .ok snapshot →
    ∀ rest, decode ⟨snapshot.bytes ++ rest⟩ = .ok value
  leaves : ∀ (value : α) (snapshot : Snapshot), encode value = .ok snapshot →
    ∀ knot rest, read knot (Storable.shape α) (snapshot.bytes ++ rest) =
      .ok (Storable.toDatum value, rest)
  splits : ∀ (value other : α) (snapshot taken : Snapshot),
    encode value = .ok snapshot → encode other = .ok taken →
      ∀ rest more, snapshot.bytes ++ rest = taken.bytes ++ more → value = other ∧ rest = more
  distinguishes : ∀ (value other : α) (snapshot : Snapshot),
    encode value = .ok snapshot → encode other = .ok snapshot → value = other

section Values

variable {α : Type} [Storable α] [LawfulStorable α]

theorem eq_of_append_eq (packed : (Storable.shape α).packs = true) {value other : α}
    {snapshot taken : Snapshot} (encoded : encode value = .ok snapshot)
    (encoded' : encode other = .ok taken) {rest more : List UInt8}
    (same : snapshot.bytes ++ rest = taken.bytes ++ more) : value = other ∧ rest = more := by
  have decoded : (decode ⟨snapshot.bytes ++ rest⟩ : Except StorageError α) = .ok value :=
    decode_append packed encoded rest
  have first := read_encode packed encoded (fun _ => .error .exhausted) rest
  rw [same] at decoded first
  have second := read_encode packed encoded' (fun _ => .error .exhausted) more
  constructor
  · exact Except.ok.inj (decoded.symm.trans (decode_append packed encoded' more))
  · exact (Prod.mk.inj (Except.ok.inj (first.symm.trans second))).2

theorem selfDelimiting (packed : (Storable.shape α).packs = true) : SelfDelimiting α where
  encodes _ := encode_returns
  decodes _ _ := decode_append packed
  leaves _ _ := read_encode packed
  splits _ _ _ _ encoded encoded' _ _ := eq_of_append_eq packed encoded encoded'
  distinguishes _ _ snapshot encoded encoded' :=
    (eq_of_append_eq packed encoded encoded' (Eq.refl (snapshot.bytes ++ []))).1

end Values

end Snapshot

/-- Snapshots of stacks and queues, whatever trees, counters and slots are in them, and of the states
of both games are self-delimiting. -/
theorem snapshots_self_delimiting {Action : Type} [NamedAction Action] :
    Snapshot.SelfDelimiting (Stack Action) ∧ Snapshot.SelfDelimiting (Queue Action) ∧
    Snapshot.SelfDelimiting Trail.State ∧ Snapshot.SelfDelimiting Bazaar.State :=
  ⟨Snapshot.selfDelimiting rfl, Snapshot.selfDelimiting rfl,
    Snapshot.selfDelimiting Trail.State.shape_packs,
    Snapshot.selfDelimiting Bazaar.State.shape_packs⟩

theorem snapshots_self_delimiting_unsound :
    let queue : Queue Scripted.Action :=
      ⟨[.repeated 3 2 (.mandatory .draw) none 7], [.optional .move], some (.anyTime 9), by decide⟩
    queue.validate = .error (.repeatBounds 3 2) ∧
    ∃ snapshot, Snapshot.encode queue = .ok snapshot ∧
      Snapshot.decode ⟨snapshot.bytes ++ [1, 0, 255]⟩ = .ok queue := by
  intro queue
  have delimiting : Snapshot.SelfDelimiting (Queue Scripted.Action) := snapshots_self_delimiting.2.1
  have small : (Snapshot.write (Storable.toDatum queue)).length < Snapshot.sizeLimit := by decide
  obtain ⟨snapshot, encoded⟩ := delimiting.encodes queue small
  exact ⟨rfl, snapshot, encoded, delimiting.decodes queue snapshot encoded _⟩

/-! ### Playing on -/

theorem Bazaar.service_forgetful : Forgetful Bazaar.service := by
  intro request play
  cases request
  rfl

/-- From a new game on the trail or in the bazaar, whatever is played, skipped, ended, taken back,
released, saved and loaded: the game is loaded from its save as it stands, with nothing to take back, and
whatever is called on it from then on, short of taking back, comes to what it would have come to without. -/
theorem resume_invisible :
    (∀ (setup : Trail.Setup) (game : Trail.State) (seed drawn generator : Generator)
      (commands : List (Command Trail.Action (Upkeep Empty)))
      (session : Session Trail.State Trail.Action Trail.Rejection (Upkeep Empty)),
      setup.Admitted → setup.build seed = .ok (game, drawn) →
      Session.run (upkeep noService) commands (.start game generator) = .ok session →
      session.play.Resumes (upkeep noService)) ∧
    (∀ (setup : Bazaar.Setup) (game : Bazaar.State) (generator : Generator)
      (commands : List (Command Bazaar.Action (Upkeep Bazaar.Request)))
      (session : Session Bazaar.State Bazaar.Action Bazaar.Rejection (Upkeep Bazaar.Request)),
      setup.Admitted → setup.build = .ok game →
      Session.run (upkeep Bazaar.service) commands (.start game generator) = .ok session →
      session.play.Resumes (upkeep Bazaar.service)) := by
  constructor
  · intro setup game seed drawn generator commands session admitted built ran
    have keeps := Session.run_keeps (Trail.State.upheld setup) (Trail.State.upkeep_respects setup)
      (Play.Keeps.start (Trail.build_inTurn admitted built)) ran
    exact Play.resumes_of_loads (forgetful_upkeep nofun) keeps.here.loads
  · intro setup game generator commands session admitted built ran
    have keeps := Session.run_keeps (Bazaar.State.upheld setup) (Bazaar.State.upkeep_respects setup)
      (Play.Keeps.start (Bazaar.build_inTurn admitted built)) ran
    exact Play.resumes_of_loads (forgetful_upkeep Bazaar.service_forgetful) keeps.here.loads

theorem resume_invisible_halfway :
    (∃ game drawn, ∃ session : Session Trail.State Trail.Action Trail.Rejection (Upkeep Empty),
      Trail.Setup.standard.build (.ofSeed 1) = .ok (game, drawn) ∧
      Session.run (upkeep noService) [.endTurn, .takeBack] (.start game drawn) = .ok session ∧
      session.play.Resumes (upkeep noService)) ∧
    (let setup := Bazaar.Setup.standard.withBonusCards [1, 2]
     ∃ game, ∃ session : Session Bazaar.State Bazaar.Action Bazaar.Rejection (Upkeep Bazaar.Request),
      setup.build = .ok game ∧
      Session.run (upkeep Bazaar.service) [.perform .playBonusCard, .extra (.own .releaseCurrent)]
        (.start game (.ofSeed 1)) = .ok session ∧
      session.play.game.queue.length = 2 ∧ session.play.undo.size = 1 ∧
      Play.load? (Storage.toText session.play.game) = .ok ⟨session.play.game, .empty⟩ ∧
      (Play.watch (upkeep Bazaar.service) [(.perform .move, .ofSeed 1)]
          ⟨session.play.game, .empty⟩ : Except Fault
            (List (Sight Bazaar.State Bazaar.Action Bazaar.Rejection))) =
        session.play.watch (upkeep Bazaar.service) [(.perform .move, .ofSeed 1)]) := by
  constructor
  · obtain ⟨herders, drawn, built⟩ := Trail.build_standard (.ofSeed 1)
    obtain ⟨session, ran⟩ : ∃ session : Session Trail.State Trail.Action Trail.Rejection (Upkeep Empty),
        Session.run (upkeep noService) [.endTurn, .takeBack] (.start
          ⟨Trail.Location.standardTrail, herders, ⟨0⟩, 0, .ofList [.mandatory .move]⟩ drawn) =
            .ok session := ⟨_, rfl⟩
    exact ⟨_, _, session, built, ran, resume_invisible.1 _ _ _ _ _ _ _ .standard built ran⟩
  · intro setup
    have halfway : (setup.build >>= fun game => (Session.run (upkeep Bazaar.service)
        [.perform .playBonusCard, .extra (.own .releaseCurrent)] (.start game (.ofSeed 1)) :
          Except Fault
            (Session Bazaar.State Bazaar.Action Bazaar.Rejection (Upkeep Bazaar.Request)))).map
        (fun session => (session.play.game.queue.length, session.play.undo.size)) = .ok (2, 1) := by
      cbv
    obtain ⟨session, ran, reached⟩ := map_eq_ok.mp halfway
    obtain ⟨game, built, ran⟩ := bind_eq_ok.mp ran
    obtain ⟨length, logged⟩ := Prod.mk.inj reached
    have resumes := resume_invisible.2 setup game (.ofSeed 1) _ session
      (.withBonusCards _ .standard) built ran
    exact ⟨game, session, built, ran, length, logged, resumes.loads, resumes.alike _ (by simp)⟩

end TurnObligations
