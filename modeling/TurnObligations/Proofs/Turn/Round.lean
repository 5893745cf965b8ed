import Mathlib.Data.List.Rotate
import TurnObligations.Proofs.Turn.Protocol
import TurnObligations.Proofs.Turn.Total

/-!
Turns ended one after the other. A seat is numbered by a byte: the turn goes round all seats of a table
that has no more seats than that, and round the first ones of any other.
-/

namespace TurnObligations

theorem map_range_mod_perm (start places : Nat) :
    ((List.range places).map fun step => (start + step) % places).Perm (List.range places) := by
  have rotated : (List.range places).map (fun step => (start + step) % places) =
      (List.range places).rotate start := by
    refine List.ext_getElem (by simp) fun step _ _ => ?_
    simp [List.getElem_rotate, Nat.add_comm]
  rw [rotated]
  exact List.rotate_perm _ _

namespace Round

variable {before after : Round}

theorem Follows.index (follows : before.Follows after) (seated : before.seat.index < before.players) :
    after.seat.index = (before.seat.index + 1) % Seat.reached before.players :=
  Seat.next_index seated follows.seat

theorem Follows.seated (follows : before.Follows after) : after.seat.index < after.players := by
  rw [follows.players]
  exact Seat.next_index_lt follows.seat

end Round

section Turns

variable {Game Action Pending Reason : Type} [Container Pending Action]
  [TurnGame Game Action Pending Reason]

namespace Play

def finishTurns : (turns : Nat) → Play Game → Except Fault (Play Game × List Seat)
  | 0, play => .ok (play, [])
  | turns + 1, play => do
      let (after, _, seat) ← play.finishTurn
      let (last, seats) ← finishTurns turns after
      return (last, seat :: seats)

/-- So many turn ends give every one of the first so many seats the turn once, and then it is back where
it was. -/
def GoesRound (turns : Nat) (play : Play Game) : Prop :=
  ∃ last seats, play.finishTurns turns = .ok (last, seats) ∧
    (seats.map Seat.index).Perm (List.range turns) ∧
    TurnGame.currentSeat last.game = TurnGame.currentSeat play.game

theorem finishTurns_succ_eq_ok {play last : Play Game} {turns : Nat} {seats : List Seat} :
    play.finishTurns (turns + 1) = .ok (last, seats) ↔
      ∃ after event seat rest, play.finishTurn = .ok (after, event, seat) ∧
        after.finishTurns turns = .ok (last, rest) ∧ seat :: rest = seats := by
  rw [finishTurns, bind_eq_ok]
  constructor
  · rintro ⟨⟨after, event, seat⟩, finished, onward⟩
    obtain ⟨⟨_, rest⟩, ran, result⟩ := bind_eq_ok.mp onward
    cases result
    exact ⟨after, event, seat, rest, finished, ran, rfl⟩
  · rintro ⟨after, event, seat, rest, finished, ran, rfl⟩
    exact ⟨(after, event, seat), finished, bind_eq_ok.mpr ⟨(last, rest), ran, rfl⟩⟩

variable [TableGame Game]

structure Rotates (holds : Game → Prop) : Prop where
  seated : ∀ game, holds game → (TableGame.round game).seat.index < (TableGame.round game).players
  starts : ∀ game, holds game → (TableGame.round game).turn.toNat + 1 < UInt32.size → Startable game
  keeps : ∀ game begun, holds game → TurnGame.startNextTurn
    (TurnGame.withPending (Container.clear (TurnGame.pending game)) game) = .ok begun → holds begun

variable {holds : Game → Prop} {play last : Play Game} {turns : Nat} {seats : List Seat}

theorem Rotates.finishTurn (rotates : Rotates holds) (held : holds play.game) {after : Play Game}
    {event : MoveEvent Action} {seat : Seat}
    (finished : play.finishTurn = .ok (after, event, seat)) : holds after.game := by
  obtain ⟨begun, started, rfl, -, -⟩ := finishTurn_cases finished
  exact rotates.keeps play.game begun held started

variable [LawfulTable Game]

theorem finishTurn_follows {after : Play Game} {event : MoveEvent Action} {seat : Seat}
    (finished : play.finishTurn = .ok (after, event, seat)) :
    (TableGame.round play.game).Follows (TableGame.round after.game) ∧
      seat = (TableGame.round after.game).seat := by
  obtain ⟨begun, started, rfl, rfl, -⟩ := finishTurn_cases finished
  exact ⟨(LawfulTable.starts started).1, (LawfulTable.seat begun).symm⟩

theorem finishTurns_returns (rotates : Rotates holds) (held : holds play.game)
    (counts : (TableGame.round play.game).turn.toNat + turns < UInt32.size) :
    ∃ last seats, play.finishTurns turns = .ok (last, seats) := by
  induction turns generalizing play with
  | zero => exact ⟨play, [], rfl⟩
  | succ turns ih =>
      have startable := rotates.starts play.game held (by omega)
      obtain ⟨⟨after, event, seat⟩, finished⟩ := finishTurn_returns play startable
      have follows := (finishTurn_follows finished).1
      have later : (TableGame.round after.game).turn.toNat + turns < UInt32.size := by
        rw [follows.turn]
        omega
      obtain ⟨last, rest, ran⟩ := ih (rotates.finishTurn held finished) later
      exact ⟨last, seat :: rest,
        finishTurns_succ_eq_ok.mpr ⟨after, event, seat, rest, finished, ran, rfl⟩⟩

theorem finishTurns_round
    (seated : (TableGame.round play.game).seat.index < (TableGame.round play.game).players)
    (ran : play.finishTurns turns = .ok (last, seats)) :
    let first := (TableGame.round play.game).seat.index
    let places := Seat.reached (TableGame.round play.game).players
    seats.map Seat.index = (List.range turns).map (fun step => (first + 1 + step) % places) ∧
      (TableGame.round last.game).seat.index = (first + turns) % places ∧
      (TableGame.round last.game).turn.toNat = (TableGame.round play.game).turn.toNat + turns := by
  induction turns generalizing play seats with
  | zero =>
      cases ran
      exact ⟨rfl, (Nat.mod_eq_of_lt (Seat.index_lt_reached seated)).symm, rfl⟩
  | succ turns ih =>
      obtain ⟨after, event, seat, rest, finished, onward, rfl⟩ := finishTurns_succ_eq_ok.mp ran
      obtain ⟨follows, rfl⟩ := finishTurn_follows finished
      have next := follows.index seated
      obtain ⟨visited, back, counted⟩ := ih follows.seated onward
      rw [follows.players, next] at visited back
      refine ⟨?_, ?_, ?_⟩
      · rw [List.map_cons, visited, next, List.range_succ_eq_map, List.map_cons, List.map_map]
        refine congrArg₂ List.cons rfl (List.map_congr_left fun step _ => ?_)
        show ((_ + 1) % _ + 1 + step) % _ = (_ + 1 + (step + 1)) % _
        rw [Nat.add_assoc, Nat.mod_add_mod, Nat.add_comm 1 step]
      · rw [back, Nat.mod_add_mod, Nat.add_assoc, Nat.add_comm 1 turns]
      · rw [counted, follows.turn]
        omega

theorem goesRound_reached (rotates : Rotates holds) (held : holds play.game)
    (counts : (TableGame.round play.game).turn.toNat +
      Seat.reached (TableGame.round play.game).players < UInt32.size) :
    play.GoesRound (Seat.reached (TableGame.round play.game).players) := by
  have seated := rotates.seated play.game held
  obtain ⟨last, seats, ran⟩ := finishTurns_returns rotates held counts
  obtain ⟨visited, back, _⟩ := finishTurns_round seated ran
  refine ⟨last, seats, ran, visited ▸ map_range_mod_perm _ _, ?_⟩
  rw [Nat.add_mod_right, Nat.mod_eq_of_lt (Seat.index_lt_reached seated)] at back
  rw [← LawfulTable.seat, ← LawfulTable.seat]
  exact Seat.eq_of_index back

theorem goesRound_iff (rotates : Rotates holds) (held : holds play.game) :
    play.GoesRound (TableGame.round play.game).players ↔
      (TableGame.round play.game).players ≤ UInt8.size ∧
        (TableGame.round play.game).turn.toNat + (TableGame.round play.game).players <
          UInt32.size := by
  constructor
  · rintro ⟨last, seats, ran, once, _⟩
    obtain ⟨_, _, counted⟩ := finishTurns_round (rotates.seated play.game held) ran
    refine ⟨Nat.le_of_not_lt fun many => ?_, counted ▸ UInt32.toNat_lt _⟩
    -- a seat with the number 256 would have to be current once
    obtain ⟨seat, _, beyond⟩ := List.mem_map.mp (once.mem_iff.mpr (List.mem_range.mpr many))
    exact absurd seat.index_lt (by omega)
  · rintro ⟨few, counts⟩
    have all : Seat.reached (TableGame.round play.game).players =
        (TableGame.round play.game).players := Nat.min_eq_left few
    have round := goesRound_reached rotates held (all.symm ▸ counts)
    rwa [all] at round

end Play

end Turns

end TurnObligations
