import TurnObligations.Proofs.Storage.Size
import TurnObligations.Proofs.Trail.Turn

/-!
The states of a trail game stay small: their snapshots fit and their JSON nests within bounds, so that
they can always be saved and loaded.
-/

namespace TurnObligations.Trail

open Snapshot (write length_write_bytes length_write_list_le length_write_position
  length_littleEndian sizeLimit)

/-! ### Bytes -/

theorem length_write_herder (herder : Herder) :
    (write (Storable.toDatum herder)).length ≤ 37 + herder.cards.length := by
  have position := length_write_position herder.position
  have hand := length_write_bytes herder.hand
  have deck := length_write_bytes herder.deck
  have discard := length_write_bytes herder.discard
  show (write (Storable.toDatum herder.position) ++ (Snapshot.littleEndian 4 herder.dollars.toNat ++
    (write (Storable.toDatum herder.hand) ++ (write (Storable.toDatum herder.deck) ++
      (write (Storable.toDatum herder.discard) ++ []))))).length ≤ _
  simp only [List.length_append, length_littleEndian, List.length_nil, Herder.cards]
  omega

theorem write_state (state : State) :
    write (Storable.toDatum state) = write (Storable.toDatum state.trail) ++
      ((write (Storable.toDatum state.herders.seats) ++ []) ++ ([state.current.id] ++
        (Snapshot.littleEndian 4 state.turn.toNat ++
          (write (Storable.toDatum state.stack) ++ [])))) := rfl

theorem length_write_state {state : State} {most : Nat}
    (cards : ∀ herder ∈ state.herders.seats, herder.cards.length ≤ most) :
    (write (Storable.toDatum state)).length ≤ 4 * state.trail.length +
      (37 + most) * state.herders.count + (write (Storable.toDatum state.stack)).length + 21 := by
  have trail : (write (Storable.toDatum state.trail)).length ≤ 8 + 4 * state.trail.length :=
    length_write_list_le fun location _ => by cases location <;> decide
  have herders : (write (Storable.toDatum state.herders.seats)).length ≤
      8 + (37 + most) * state.herders.count := by
    refine length_write_list_le ?_
    intro herder member
    exact Nat.le_trans (length_write_herder herder) (by have := cards herder member; omega)
  rw [write_state]
  simp only [List.length_append, length_littleEndian, List.length_nil, List.length_singleton]
  omega

theorem length_write_pending (phase : Phase) :
    (write (Storable.toDatum (Phase.pending phase))).length ≤ 400 := by
  cases phase <;> decide

namespace State

variable {setup : Setup} {state : State}

theorem InTurn.fits (inTurn : state.InTurn setup) (roomy : 8 * setup.trail.length ≤ sizeLimit) :
    ∃ taken, TurnGame.snapshot state = .ok taken := by
  obtain ⟨phase, inPhase⟩ := inTurn
  have kept := inPhase.stands.kept
  have herd := phase.herd_le
  have turn := state.turn.toNat_lt
  have cards : ∀ herder ∈ state.herders.seats, herder.cards.length ≤ 9 + 2 * UInt32.size := by
    intro herder member
    have held := kept.cards herder member
    simp only [UInt32.size]
    omega
  have written := length_write_state cards
  have pending := length_write_pending phase
  rw [inPhase.stack, kept.trail] at written
  have seats : (37 + (9 + 2 * UInt32.size)) * state.herders.count ≤
      (37 + (9 + 2 * UInt32.size)) * 255 := Nat.mul_le_mul_left _ kept.few
  refine Snapshot.encode_returns ?_
  simp only [UInt32.size, sizeLimit, UInt64.size] at *
  omega

end State

/-! ### Brackets -/

open Storage (toJson depth_bytes_le depth_list_le depth_position)

theorem depth_herder (herder : Herder) : (toJson herder).depth ≤ 2 := by
  have position := depth_position herder.position
  have hand := depth_bytes_le herder.hand
  have deck := depth_bytes_le herder.deck
  have discard := depth_bytes_le herder.discard
  show max (toJson herder.position).depth (max 0 (max (toJson herder.hand).depth
    (max (toJson herder.deck).depth (max (toJson herder.discard).depth 0)))) + 1 ≤ 2
  omega

theorem depth_state (state : State) :
    (toJson state).depth ≤ max 4 (toJson state.stack).depth + 1 := by
  have trail : (toJson state.trail).depth ≤ 1 :=
    depth_list_le fun location _ => by cases location <;> decide
  have herders : (toJson state.herders.seats).depth ≤ 3 :=
    depth_list_le fun herder _ => depth_herder herder
  show max (toJson state.trail).depth (max (max (toJson state.herders.seats).depth 0 + 1)
    (max 0 (max 0 (max (toJson state.stack).depth 0)))) + 1 ≤ _
  omega

theorem depth_pending (phase : Phase) : (toJson (Phase.pending phase)).depth ≤ 20 := by
  cases phase <;> decide

namespace State

variable {setup : Setup} {state loaded : State}

theorem InTurn.validate (inTurn : state.InTurn setup) : state.validate = .ok () := by
  obtain ⟨phase, inPhase⟩ := inTurn
  refine (validate_eq_ok_iff state).mpr ⟨?_, inPhase.stands.kept.placed⟩
  rw [inPhase.stack]
  exact Phase.pending_valid _

theorem InTurn.loads (inTurn : state.InTurn setup) :
    Saved.ofText? (Storage.toText state) = .ok state := by
  have shallow : (toJson state).depth ≤ Json.maxDepth := by
    obtain ⟨phase, inPhase⟩ := inTurn
    have whole := depth_state state
    have pending := depth_pending phase
    rw [inPhase.stack] at whole
    simp only [Json.maxDepth]
    omega
  exact (Saved.ofText?_gated state shallow).accepted.mpr inTurn.validate

theorem upkeep_respects (setup : Setup) :
    Play.Respects (upkeep (noService : Service State Action Empty)) (InTurn setup)
      (InTurn setup) := by
  refine TurnObligations.upkeep_respects (upheld setup) ?_ ?_ nofun
  · rintro state ⟨phase, inPhase⟩
    exact inPhase.stands.kept.mono (Nat.le_succ_of_le phase.herd_le)
  · intro state loaded inTurn read
    exact Except.ok.inj (inTurn.loads.symm.trans read) ▸ inTurn

end State

end TurnObligations.Trail
