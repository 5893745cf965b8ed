import TurnObligations.Bazaar.Game
import TurnObligations.Proofs.Seat
import TurnObligations.Proofs.Storage.Bytes
import TurnObligations.Proofs.Storage.RoundTrip
import TurnObligations.Proofs.Turn.Protocol

/-!
The state of a bazaar game survives being stored, as JSON and as a snapshot; and what moves in the bazaar
can touch, and that they keep what the turn rules rely on.
-/

namespace TurnObligations.Bazaar

section Stored

open Storage (FieldsConform index_shown option_conforms option_rebuilds)

instance : LawfulStorable Place where
  conforms _ place := by cases place <;> exact .labels rfl
  rebuilds place := by cases place <;> rfl

instance : LawfulStorable Merchant where
  conforms scope merchant :=
    FieldsConform.record
      (.cons (option_conforms index_shown scope merchant.place)
        (.cons .count (.cons .byte (.cons .byte
          (.cons (LawfulStorable.conforms scope merchant.bonusCards) .nil)))))
      (by simp)
  rebuilds merchant := by
    show (do return (⟨← Storable.ofDatum? (Storable.toDatum merchant.place), merchant.lira,
      merchant.goods, merchant.rubies,
      ← Storable.ofDatum? (Storable.toDatum merchant.bonusCards)⟩ : Merchant)) = some merchant
    simp only [option_rebuilds, LawfulStorable.rebuilds]
    rfl

instance : LawfulStorable Rules where
  conforms _ _ := FieldsConform.record (.cons .count (.cons .byte (.cons .byte .nil))) (by simp)
  rebuilds _ := rfl

namespace State

instance : LawfulStorable State where
  conforms scope state :=
    FieldsConform.record
      (.cons (LawfulStorable.conforms scope state.rules)
        (.cons (LawfulStorable.conforms scope state.places)
          (.cons (LawfulStorable.conforms scope state.merchants)
            (.cons (LawfulStorable.conforms scope state.current)
              (.cons .count (.cons (LawfulStorable.conforms scope state.queue) .nil))))))
      (by simp)
  rebuilds state := by
    show (do return (⟨← Storable.ofDatum? (Storable.toDatum state.rules),
      ← Storable.ofDatum? (Storable.toDatum state.places),
      ← Storable.ofDatum? (Storable.toDatum state.merchants),
      ← Storable.ofDatum? (Storable.toDatum state.current), state.turn,
      ← Storable.ofDatum? (Storable.toDatum state.queue)⟩ : State)) = some state
    simp only [LawfulStorable.rebuilds]
    rfl

theorem shape_packs : (Storable.shape State).packs = true := rfl

end State

end Stored

inductive Request where
  | releaseCurrent
deriving DecidableEq, Repr

def service : Service State Action Request
  | .releaseCurrent, play => .ok (⟨play.game.releaseCurrent, play.undo⟩, [])

namespace State

/-- A rejected move has touched nothing. Any other changes the active merchant, and only one that
reveals a bonus card draws from the generator; it cannot be taken back. -/
inductive Moved (state : State) (generator : Generator) : Executed State Action Rejection → Prop
  | rejected (reason : Rejection) : Moved state generator ⟨state, generator, .error reason⟩
  | moved (merchant : Merchant) (outcome : Outcome Action) :
      Moved state generator ⟨state.withActive merchant, generator, .ok outcome⟩
  | revealed (merchant : Merchant) (drawn : Generator) :
      Moved state generator ⟨state.withActive merchant, drawn, .ok (.none false)⟩

section Moves

variable {state : State} {generator : Generator} {executed : Executed State Action Rejection}

theorem moveOn_cases (done : state.moveOn generator = .ok executed) :
    Moved state generator executed := by
  obtain ⟨merchant, _, rest⟩ := bind_eq_ok.mp done
  obtain ⟨⟨index, place⟩, _, result⟩ := bind_eq_ok.mp rest
  cases result
  exact .moved _ _

theorem takeGoods_cases (done : state.takeGoods generator = .ok executed) :
    Moved state generator executed := by
  obtain ⟨merchant, _, result⟩ := bind_eq_ok.mp done
  cases result
  exact .moved _ _

theorem sellGoods_cases (done : state.sellGoods generator = .ok executed) :
    Moved state generator executed := by
  obtain ⟨merchant, _, rest⟩ := bind_eq_ok.mp done
  split at rest
  · cases rest
    exact .rejected _
  · obtain ⟨lira, _, result⟩ := bind_eq_ok.mp rest
    cases result
    exact .moved _ _

theorem buyRuby_cases (done : state.buyRuby generator = .ok executed) :
    Moved state generator executed := by
  obtain ⟨merchant, _, rest⟩ := bind_eq_ok.mp done
  dsimp only at rest
  split at rest
  · cases rest
    exact .rejected _
  · obtain ⟨rubies, _, result⟩ := bind_eq_ok.mp rest
    cases result
    exact .moved _ _

theorem drawBonusCard_cases (done : state.drawBonusCard generator = .ok executed) :
    Moved state generator executed := by
  obtain ⟨⟨index, drawn⟩, _, rest⟩ := bind_eq_ok.mp done
  obtain ⟨merchant, _, result⟩ := bind_eq_ok.mp rest
  cases result
  exact .revealed _ _

theorem discardBonusCard_cases (done : state.discardBonusCard generator = .ok executed) :
    Moved state generator executed := by
  obtain ⟨merchant, _, rest⟩ := bind_eq_ok.mp done
  split at rest
  · cases rest
    exact .rejected _
  · cases rest
    exact .moved _ _

theorem playBonusCard_cases (done : state.playBonusCard generator = .ok executed) :
    Moved state generator executed := by
  obtain ⟨merchant, _, rest⟩ := bind_eq_ok.mp done
  split at rest
  · cases rest
    exact .rejected _
  · obtain ⟨lira, _, result⟩ := bind_eq_ok.mp rest
    cases result
    exact .moved _ _

theorem execute_cases {action : Action} (done : state.execute action generator = .ok executed) :
    Moved state generator executed := by
  unfold execute at done
  split at done
  · cases done
    exact .rejected _
  · cases action with
    | move => exact moveOn_cases done
    | takeGoods => exact takeGoods_cases done
    | sellGoods => exact sellGoods_cases done
    | buyRuby => exact buyRuby_cases done
    | drawBonusCard => exact drawBonusCard_cases done
    | discardBonusCard => exact discardBonusCard_cases done
    | playBonusCard => exact playBonusCard_cases done

end Moves

instance : LawfulGame State where
  restores taken _ := Snapshot.decode_encode shape_packs taken
  rejects executed := by
    cases execute_cases executed
    rfl
  allows executed undoable := by
    cases execute_cases executed with
    | moved => rfl
    | revealed => cases undoable

/-! ### Turns -/

def bonusPlays (merchant : Merchant) : List (Obligation Action) :=
  let held := UInt32.ofNat merchant.bonusCards.length
  if 0 < held then [.freshRepeat 0 held (.mandatory .playBonusCard)] else []

/-- A turn has just been opened: the move is pending, and one play for each bonus card held. -/
structure Opened (state : State) (merchant : Merchant) : Prop where
  active : state.active = .ok merchant
  order : state.queue.order = [.mandatory .move]
  anyTime : state.queue.anyTime = bonusPlays merchant
  current : state.queue.current = none

theorem pushAnyTime_plays {held : UInt32} (holds : 0 < held) {queue filled : Queue Action}
    (pushed : queue.pushAnyTime (.freshRepeat 0 held (.mandatory .playBonusCard)) = .ok filled) :
    filled.anyTime = queue.anyTime ++ [.freshRepeat 0 held (.mandatory .playBonusCard)] ∧
      filled.order = queue.order ∧ filled.current = queue.current := by
  have fresh : (Obligation.freshRepeat 0 held (.mandatory Action.playBonusCard)).isFinal = false := by
    have different : (0 : UInt32) ≠ held := fun same => UInt32.lt_irrefl _ (same ▸ holds)
    simpa [Obligation.freshRepeat, Obligation.isFinal] using different
  simp only [Queue.pushAnyTime, fresh, Bool.false_eq_true, if_false] at pushed
  split at pushed
  · cases pushed
    exact ⟨rfl, rfl, rfl⟩
  · cases pushed

theorem openTurn_cases {state after : State} (cleared : state.queue = .empty)
    (opened : state.openTurn = .ok after) :
    after = { state with queue := after.queue } ∧ ∃ merchant, Opened after merchant := by
  obtain ⟨queue, pushed, rest⟩ := bind_eq_ok.mp opened
  obtain ⟨merchant, active, rest⟩ := bind_eq_ok.mp rest
  rw [cleared] at pushed
  cases pushed
  dsimp only at rest
  split at rest
  · next holds =>
      obtain ⟨filled, plays, result⟩ := bind_eq_ok.mp rest
      cases result
      obtain ⟨anyTime, order, current⟩ := pushAnyTime_plays holds plays
      exact ⟨rfl, merchant, active, order, anyTime.trans (if_pos holds).symm, current⟩
  · next holdsNone =>
      cases rest
      exact ⟨rfl, merchant, active, rfl, (if_neg holdsNone).symm, rfl⟩

instance : TableGame State where
  round state := ⟨state.current, state.turn, state.merchants.count⟩
  Opens state := ∃ merchant, Opened state merchant

instance : LawfulTable State where
  seat _ := rfl
  executes executed := by
    cases execute_cases executed with
    | moved => simp [TableGame.round, withActive]
    | revealed => simp [TableGame.round, withActive]
  pends _ _ := rfl
  starts started := by
    obtain ⟨current, next, rest⟩ := bind_eq_ok.mp started
    obtain ⟨turn, counted, opened⟩ := bind_eq_ok.mp rest
    obtain ⟨same, opens⟩ := openTurn_cases rfl opened
    rw [same]
    exact ⟨⟨next, Counter.toNat_of_add32 counted, rfl⟩, same ▸ opens⟩

theorem service_keepsTurn : KeepsTurn service := by
  intro request play after events served
  cases request
  cases served
  exact ⟨rfl, rfl, rfl⟩

end State

theorem build_round {setup : Setup} {state : State} (built : setup.build = .ok state) :
    (0 < setup.players ∧ setup.players ≤ 255) ∧ TableGame.round state = ⟨⟨0⟩, 0, setup.players⟩ := by
  obtain ⟨merchants, seated, opened⟩ := bind_eq_ok.mp built
  obtain ⟨bounds, count⟩ := SeatMap.build_eq_ok seated
  obtain ⟨same, _⟩ := State.openTurn_cases rfl opened
  rw [same, ← count]
  exact ⟨count ▸ bounds, rfl⟩

end TurnObligations.Bazaar
