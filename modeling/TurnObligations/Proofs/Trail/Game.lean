import TurnObligations.Proofs.Seat
import TurnObligations.Proofs.Storage.Bytes
import TurnObligations.Proofs.Storage.RoundTrip
import TurnObligations.Proofs.Turn.Protocol
import TurnObligations.Trail.Game

/-!
The state of a trail game survives being stored, as JSON and as a snapshot; and what moves on the trail
can touch, and that they keep what the turn rules rely on.
-/

namespace TurnObligations.Trail

section Stored

open Storage (FieldsConform index_shown option_conforms option_rebuilds)

instance : LawfulStorable Location where
  conforms _ location := by cases location <;> exact .labels rfl
  rebuilds location := by cases location <;> rfl

instance : LawfulStorable Herder where
  conforms scope herder :=
    FieldsConform.record
      (.cons (option_conforms index_shown scope herder.position)
        (.cons .count
          (.cons (LawfulStorable.conforms scope herder.hand)
            (.cons (LawfulStorable.conforms scope herder.deck)
              (.cons (LawfulStorable.conforms scope herder.discard) .nil)))))
      (by simp)
  rebuilds herder := by
    show (do return (⟨← Storable.ofDatum? (Storable.toDatum herder.position), herder.dollars,
      ← Storable.ofDatum? (Storable.toDatum herder.hand),
      ← Storable.ofDatum? (Storable.toDatum herder.deck),
      ← Storable.ofDatum? (Storable.toDatum herder.discard)⟩ : Herder)) = some herder
    simp only [option_rebuilds, LawfulStorable.rebuilds]
    rfl

namespace State

instance : LawfulStorable State where
  conforms scope state :=
    FieldsConform.record
      (.cons (LawfulStorable.conforms scope state.trail)
        (.cons (LawfulStorable.conforms scope state.herders)
          (.cons (LawfulStorable.conforms scope state.current)
            (.cons .count (.cons (LawfulStorable.conforms scope state.stack) .nil)))))
      (by simp)
  rebuilds state := by
    show (do return (⟨← Storable.ofDatum? (Storable.toDatum state.trail),
      ← Storable.ofDatum? (Storable.toDatum state.herders),
      ← Storable.ofDatum? (Storable.toDatum state.current), state.turn,
      ← Storable.ofDatum? (Storable.toDatum state.stack)⟩ : State)) = some state
    simp only [LawfulStorable.rebuilds]
    rfl

theorem shape_packs : (Storable.shape State).packs = true := rfl

end State

end Stored

namespace State

/-- A rejected move has touched nothing. Any other changes the active herder and what is pending, and
only one that reveals a card draws from the generator; it cannot be taken back. -/
inductive Moved (state : State) (generator : Generator) : Executed State Action Rejection → Prop
  | rejected (reason : Rejection) : Moved state generator ⟨state, generator, .error reason⟩
  | moved (herder : Herder) (stack : Stack Action) (outcome : Outcome Action) :
      Moved state generator ⟨{ state.withActive herder with stack }, generator, .ok outcome⟩
  | revealed (herder : Herder) (drawn : Generator) :
      Moved state generator ⟨state.withActive herder, drawn, .ok (.none false)⟩

section Moves

variable {state : State} {generator : Generator} {executed : Executed State Action Rejection}

theorem moveOn_cases (done : state.moveOn generator = .ok executed) :
    Moved state generator executed := by
  obtain ⟨herder, _, rest⟩ := bind_eq_ok.mp done
  obtain ⟨⟨position, location⟩, _, result⟩ := bind_eq_ok.mp rest
  cases result
  exact .moved { herder with position := some position } .empty _

theorem drawCard_cases (done : state.drawCard generator = .ok executed) :
    Moved state generator executed := by
  obtain ⟨herder, _, rest⟩ := bind_eq_ok.mp done
  split at rest
  · cases rest
    exact .rejected _
  · cases rest
    exact .revealed _ _

theorem discardCard_cases (done : state.discardCard generator = .ok executed) :
    Moved state generator executed := by
  obtain ⟨location, _, rest⟩ := bind_eq_ok.mp done
  obtain ⟨herder, _, rest⟩ := bind_eq_ok.mp rest
  split at rest
  · cases rest
    exact .rejected _
  · dsimp only at rest
    split at rest
    · obtain ⟨dollars, _, result⟩ := bind_eq_ok.mp rest
      cases result
      exact .moved _ state.stack _
    · cases rest
      exact .moved _ state.stack _

theorem gainDollars_cases (done : state.gainDollars generator = .ok executed) :
    Moved state generator executed := by
  obtain ⟨herder, _, rest⟩ := bind_eq_ok.mp done
  obtain ⟨dollars, _, result⟩ := bind_eq_ok.mp rest
  cases result
  exact .moved { herder with dollars } state.stack _

theorem buyCattle_cases (done : state.buyCattle generator = .ok executed) :
    Moved state generator executed := by
  obtain ⟨herder, _, rest⟩ := bind_eq_ok.mp done
  split at rest
  · cases rest
    exact .rejected _
  · cases rest
    exact .moved _ state.stack _

theorem payToll_cases (done : state.payToll generator = .ok executed) :
    Moved state generator executed := by
  obtain ⟨herder, _, rest⟩ := bind_eq_ok.mp done
  cases rest
  exact .moved _ state.stack _

theorem execute_cases {action : Action} (done : state.execute action generator = .ok executed) :
    Moved state generator executed := by
  cases action with
  | move => exact moveOn_cases done
  | drawCard => exact drawCard_cases done
  | discardCard => exact discardCard_cases done
  | gain2Dollars => exact gainDollars_cases done
  | buyCattle => exact buyCattle_cases done
  | payToll => exact payToll_cases done

end Moves

instance : LawfulGame State where
  restores taken _ := Snapshot.decode_encode shape_packs taken
  rejects executed := by
    cases execute_cases executed
    rfl
  allows executed undoable := by
    cases execute_cases executed with
    | moved => rfl
    | revealed => cases undoable

instance : TableGame State where
  round state := ⟨state.current, state.turn, state.herders.count⟩
  Opens state := state.stack = ⟨[.mandatory .move]⟩

instance : LawfulTable State where
  seat _ := rfl
  executes executed := by
    cases execute_cases executed with
    | moved => simp [TableGame.round, withActive]
    | revealed => simp [TableGame.round, withActive]
  pends _ _ := rfl
  starts started := by
    obtain ⟨current, next, rest⟩ := bind_eq_ok.mp started
    obtain ⟨turn, counted, result⟩ := bind_eq_ok.mp rest
    cases result
    exact ⟨⟨next, Counter.toNat_of_add32 counted, rfl⟩, rfl⟩

end State

theorem length_dealHerders {setup : Setup} (seats : List Seat) (generator : Generator) :
    (setup.dealHerders seats generator).1.length = seats.length := by
  induction seats generalizing generator with
  | nil => rfl
  | cons seat rest ih => simp [Setup.dealHerders, ih]

theorem build_standard (generator : Generator) :
    ∃ herders drawn, Setup.standard.build generator =
      .ok (⟨Location.standardTrail, herders, ⟨0⟩, 0, .ofList [.mandatory .move]⟩, drawn) :=
  ⟨_, _, rfl⟩

theorem build_round {setup : Setup} {state : State} {generator drawn : Generator}
    (built : setup.build generator = .ok (state, drawn)) :
    (0 < setup.players ∧ setup.players ≤ 255) ∧ TableGame.round state = ⟨⟨0⟩, 0, setup.players⟩ := by
  obtain ⟨seats, seated, result⟩ := bind_eq_ok.mp built
  obtain ⟨bounds, length⟩ := SeatMap.seatsOf_eq_ok seated
  cases result
  have count : (setup.dealHerders seats generator).1.length = setup.players :=
    (length_dealHerders seats generator).trans length
  exact ⟨bounds, congrArg (Round.mk ⟨0⟩ 0) count⟩

end TurnObligations.Trail
