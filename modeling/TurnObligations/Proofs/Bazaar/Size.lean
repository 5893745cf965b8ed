import TurnObligations.Proofs.Bazaar.Turn
import TurnObligations.Proofs.Storage.Size

/-!
The states of a bazaar game stay small: their snapshots fit and their JSON nests within bounds, so
that they can always be saved and loaded.
-/

namespace TurnObligations.Bazaar

open Obligation (mandatory)
open Snapshot (write length_write_bytes length_write_list_le length_write_position
  length_littleEndian sizeLimit)

/-! ### Bytes -/

theorem length_write_merchant (merchant : Merchant) :
    (write (Storable.toDatum merchant)).length ≤ 23 + merchant.bonusCards.length := by
  have place := length_write_position merchant.place
  have cards := length_write_bytes merchant.bonusCards
  show (write (Storable.toDatum merchant.place) ++ (Snapshot.littleEndian 4 merchant.lira.toNat ++
    ([merchant.goods] ++ ([merchant.rubies] ++
      (write (Storable.toDatum merchant.bonusCards) ++ []))))).length ≤ _
  simp only [List.length_append, length_littleEndian, List.length_singleton, List.length_nil]
  omega

theorem write_state (state : State) :
    write (Storable.toDatum state) = write (Storable.toDatum state.rules) ++
      (write (Storable.toDatum state.places) ++
        ((write (Storable.toDatum state.merchants.seats) ++ []) ++ ([state.current.id] ++
          (Snapshot.littleEndian 4 state.turn.toNat ++
            (write (Storable.toDatum state.queue) ++ []))))) := rfl

theorem write_queue (queue : Queue Action) :
    write (Storable.toDatum queue) = write (Storable.toDatum queue.anyTime) ++
      (write (Storable.toDatum queue.order) ++ (write (Storable.toDatum queue.current) ++ [])) := rfl

theorem length_write_state {state : State} {most : Nat}
    (cards : ∀ merchant ∈ state.merchants.seats, merchant.bonusCards.length ≤ most) :
    (write (Storable.toDatum state)).length ≤ 4 * state.places.length +
      (23 + most) * state.merchants.count + (write (Storable.toDatum state.queue)).length + 27 := by
  have places : (write (Storable.toDatum state.places)).length ≤ 8 + 4 * state.places.length :=
    length_write_list_le fun place _ => by cases place <;> decide
  have merchants : (write (Storable.toDatum state.merchants.seats)).length ≤
      8 + (23 + most) * state.merchants.count := by
    refine length_write_list_le ?_
    intro merchant member
    exact Nat.le_trans (length_write_merchant merchant) (Nat.add_le_add_left (cards _ member) 23)
  have rules : (write (Storable.toDatum state.rules)).length = 6 := by
    show (Snapshot.littleEndian 4 state.rules.rubyPrice.toNat ++ ([state.rules.rubiesToWin] ++
      ([state.rules.goodsCapacity] ++ []))).length = 6
    simp only [List.length_append, length_littleEndian, List.length_singleton, List.length_nil]
  rw [write_state]
  simp only [List.length_append, length_littleEndian, List.length_singleton, List.length_nil]
  omega

theorem length_write_play (held count : UInt32) :
    (write (Obligation.toDatum (.repeated 0 held (mandatory Action.playBonusCard) none count))).length ≤
      60 := by
  have template : (write (Obligation.toDatum (mandatory Action.playBonusCard))).length ≤ 40 := by
    decide
  simp only [Obligation.toDatum, Obligation.toDatumCurrent, write, Snapshot.writeFields,
    List.length_append, length_littleEndian, List.length_singleton, List.length_nil]
  omega

theorem length_write_order (phase : Option Phase) :
    (write (Storable.toDatum (Phase.order phase))).length ≤ 200 := by
  cases phase with
  | none => decide
  | some phase => cases phase <;> decide

theorem Pool.length_write {pool : List (Obligation Action)} {plays : Nat} (pooled : Pool pool plays) :
    (write (Storable.toDatum pool)).length ≤ 8 + 60 * pool.length := by
  cases pooled with
  | lapsed => decide
  | @playing held count left =>
      refine length_write_list_le ?_
      intro tree member
      rw [List.mem_singleton.mp member]
      exact length_write_play held count

theorem Shaped.length_write {queue : Queue Action} {phase : Option Phase} {plays : Nat}
    (shaped : Shaped queue phase plays) : (write (Storable.toDatum queue)).length ≤ 300 := by
  have order := length_write_order phase
  have pool := shaped.pool.length_write
  have one := shaped.pool.length_le
  have current : (write (Storable.toDatum queue.current)).length ≤ 20 := by
    rcases shaped.current with released | ⟨current, _⟩ | ⟨current, _⟩
    · rw [released]
      decide
    · rw [current]
      decide
    · rw [current]
      decide
  rw [write_queue, shaped.order]
  simp only [List.length_append, List.length_nil]
  omega

namespace State

variable {setup : Setup} {state : State}

theorem InTurn.fits (inTurn : state.InTurn setup)
    (roomy : 8 * (setup.places.length + setup.bonusCards.length) ≤ sizeLimit) :
    ∃ taken, TurnGame.snapshot state = .ok taken := by
  have kept := inTurn.kept
  obtain ⟨phase, plays, inPhase⟩ := inTurn
  have turn := state.turn.toNat_lt
  have cards : ∀ merchant ∈ state.merchants.seats,
      merchant.bonusCards.length ≤ setup.bonusCards.length + 2 * UInt32.size + 2 := by
    intro merchant member
    have held := kept.cards merchant member
    simp only [UInt32.size]
    omega
  have written := length_write_state cards
  have queue := inPhase.shaped.length_write
  rw [kept.places] at written
  have seats := Nat.mul_le_mul_left (23 + (setup.bonusCards.length + 2 * UInt32.size + 2)) kept.few
  refine Snapshot.encode_returns ?_
  simp only [UInt32.size, sizeLimit, UInt64.size] at *
  omega

end State

/-! ### Brackets -/

open Storage (toJson depth_bytes_le depth_list_le depth_position)

theorem depth_merchant (merchant : Merchant) : (toJson merchant).depth ≤ 2 := by
  have place := depth_position merchant.place
  have cards := depth_bytes_le merchant.bonusCards
  show max (toJson merchant.place).depth (max 0 (max 0 (max 0
    (max (toJson merchant.bonusCards).depth 0)))) + 1 ≤ 2
  omega

theorem depth_state (state : State) :
    (toJson state).depth ≤ max 4 (toJson state.queue).depth + 1 := by
  have places : (toJson state.places).depth ≤ 1 :=
    depth_list_le fun place _ => by cases place <;> decide
  have merchants : (toJson state.merchants.seats).depth ≤ 3 :=
    depth_list_le fun merchant _ => depth_merchant merchant
  show max 1 (max (toJson state.places).depth (max (max (toJson state.merchants.seats).depth 0 + 1)
    (max 0 (max 0 (max (toJson state.queue).depth 0))))) + 1 ≤ _
  omega

theorem depth_play (held count : UInt32) :
    (toJson (Obligation.repeated 0 held (mandatory Action.playBonusCard) none count)).depth ≤ 10 := by
  have template : (toJson (mandatory Action.playBonusCard)).depth ≤ 5 := by decide
  show max (max 0 (max 0 (max (toJson (mandatory Action.playBonusCard)).depth (max 0 (max 0 0)))) + 1)
    0 + 1 ≤ 10
  omega

theorem depth_order (phase : Option Phase) : (toJson (Phase.order phase)).depth ≤ 10 := by
  cases phase with
  | none => decide
  | some phase => cases phase <;> decide

theorem Pool.depth {pool : List (Obligation Action)} {plays : Nat} (pooled : Pool pool plays) :
    (toJson pool).depth ≤ 11 := by
  cases pooled with
  | lapsed => decide
  | @playing held count left =>
      refine depth_list_le ?_
      intro tree member
      rw [List.mem_singleton.mp member]
      exact depth_play held count

theorem Shaped.depth {queue : Queue Action} {phase : Option Phase} {plays : Nat}
    (shaped : Shaped queue phase plays) : (toJson queue).depth ≤ 20 := by
  have order := depth_order phase
  have pool := shaped.pool.depth
  have current : (toJson queue.current).depth ≤ 5 := by
    rcases shaped.current with released | ⟨current, _⟩ | ⟨current, _⟩
    · rw [released]
      decide
    · rw [current]
      decide
    · rw [current]
      decide
  show max (toJson queue.anyTime).depth (max (toJson queue.order).depth
    (max (toJson queue.current).depth 0)) + 1 ≤ 20
  rw [shaped.order]
  omega

namespace State

variable {setup : Setup} {state loaded : State}

theorem InTurn.validate (inTurn : state.InTurn setup) : state.validate = .ok () := by
  obtain ⟨phase, plays, inPhase⟩ := inTurn
  exact (validate_eq_ok_iff state).mpr ⟨inPhase.shaped.valid, inPhase.kept.placed⟩

theorem InTurn.loads (inTurn : state.InTurn setup) :
    Saved.ofText? (Storage.toText state) = .ok state := by
  have shallow : (toJson state).depth ≤ Json.maxDepth := by
    obtain ⟨phase, plays, inPhase⟩ := inTurn
    have whole := depth_state state
    have queue := inPhase.shaped.depth
    simp only [Json.maxDepth]
    omega
  exact (Saved.ofText?_gated state shallow).accepted.mpr inTurn.validate

theorem upkeep_respects (setup : Setup) :
    Play.Respects (upkeep service) (InTurn setup) (InTurn setup) := by
  refine TurnObligations.upkeep_respects (upheld setup) (fun _ inTurn => inTurn.kept) ?_ ?_
  · intro state loaded inTurn read
    exact Except.ok.inj (inTurn.loads.symm.trans read) ▸ inTurn
  · intro request play after events keeps served
    cases request
    cases served
    exact .inl ⟨keeps.here.released, keeps.back⟩

end State

end TurnObligations.Bazaar
