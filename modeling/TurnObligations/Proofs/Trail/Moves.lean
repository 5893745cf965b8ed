import TurnObligations.Proofs.Stack
import TurnObligations.Proofs.Track
import TurnObligations.Proofs.Trail.Game

/-!
What each move on the trail does to the active herder, where it comes back with an answer, and that
herders never leave the trail.
-/

namespace TurnObligations.Trail

def Herder.cards (herder : Herder) : List UInt8 := herder.hand ++ (herder.deck ++ herder.discard)

namespace Herder

variable {herder next : Herder} {generator drawn : Generator}

theorem refill_perm (herder : Herder) (generator : Generator) :
    ((herder.refill generator).1.deck ++ (herder.refill generator).1.discard).Perm
      (herder.deck ++ herder.discard) := by
  rw [refill]
  split
  · next empty =>
      rw [List.isEmpty_iff.mp empty, List.nil_append, List.append_nil]
      exact Generator.shuffle_perm herder.discard generator
  · exact .refl _

theorem refill_keeps (herder : Herder) (generator : Generator) :
    ∃ deck discard, (herder.refill generator).1 = { herder with deck, discard } := by
  rw [refill]
  split
  · exact ⟨_, _, rfl⟩
  · exact ⟨_, _, rfl⟩

theorem draw?_eq_some (drew : herder.draw? generator = some (next, drawn)) :
    ∃ card deck discard, next = { herder with hand := herder.hand ++ [card], deck, discard } ∧
      (card :: (deck ++ discard)).Perm (herder.deck ++ herder.discard) := by
  obtain ⟨deck, discard, refilled⟩ := herder.refill_keeps generator
  have same := herder.refill_perm generator
  simp only [draw?, Option.map_eq_some_iff] at drew
  obtain ⟨card, top, result⟩ := drew
  cases result
  rw [refilled] at top same ⊢
  obtain ⟨rest, rfl⟩ := List.getLast?_eq_some_iff.mp top
  refine ⟨card, rest, discard, by simp, ?_⟩
  rw [List.append_assoc] at same
  exact List.perm_middle.symm.trans same

end Herder

namespace State

variable {state after : State} {trail : List Location} {herder next : Herder} {action : Action}
  {left stack : Stack Action}
  {generator drawn : Generator} {outcome : Outcome Action}

/-! ### What an allowed move does -/

def played (herder : Herder) (stack : Stack Action) (state : State) : State :=
  { state with herders := state.herders.set state.current herder, stack }

theorem played_active (active : state.active = .ok herder) :
    (state.played next stack).active = .ok next := SeatMap.get_set active

/-- What an allowed move makes of the active herder and of what is left pending, and what follows
from it. -/
inductive Does (trail : List Location) (left : Stack Action) (herder : Herder) :
    Action → Herder → Stack Action → Outcome Action → Prop
  | move {position : UInt64} {location : Location}
      (advanced : Track.advance trail herder.position = .ok (position, location)) :
      Does trail left herder .move { herder with position := some position } .empty
        ⟨location.obligations, true⟩
  | drawCard {card : UInt8} {deck discard : List UInt8}
      (drew : (card :: (deck ++ discard)).Perm (herder.deck ++ herder.discard)) :
      Does trail left herder .drawCard { herder with hand := herder.hand ++ [card], deck, discard }
        left (.none false)
  | discardCard {card : UInt8} {hand : List UInt8} {dollars : UInt32}
      (taken : Cards.takeLowest? herder.hand = some (card, hand)) :
      Does trail left herder .discardCard
        { herder with hand, dollars, discard := herder.discard ++ [card] } left (.none true)
  | gain2Dollars {dollars : UInt32}
      (gained : Counter.add32 herder.dollars ranchGain = .ok dollars) :
      Does trail left herder .gain2Dollars { herder with dollars } left (.none true)
  | buyCattle (enough : cattlePrice ≤ herder.dollars) :
      Does trail left herder .buyCattle
        { herder with
          dollars := herder.dollars - cattlePrice
          discard := herder.discard ++ [boughtCattleValue] } left (.none true)
  | payToll {dollars : UInt32} :
      Does trail left herder .payToll { herder with dollars } left (.none true)

theorem execute_does
    (executed : state.execute action generator = .ok ⟨after, drawn, .ok outcome⟩) :
    ∃ herder next stack, state.active = .ok herder ∧
      Does state.trail state.stack herder action next stack outcome ∧
      after = state.played next stack := by
  cases action with
  | move =>
      obtain ⟨herder, active, rest⟩ := bind_eq_ok.mp executed
      obtain ⟨⟨position, location⟩, advanced, result⟩ := bind_eq_ok.mp rest
      cases result
      exact ⟨herder, _, _, active, .move advanced, rfl⟩
  | drawCard =>
      obtain ⟨herder, active, rest⟩ := bind_eq_ok.mp executed
      split at rest
      · cases rest
      · next next drawn drew =>
          obtain ⟨card, deck, discard, rfl, same⟩ := Herder.draw?_eq_some drew
          cases rest
          exact ⟨herder, _, _, active, .drawCard same, rfl⟩
  | discardCard =>
      obtain ⟨location, _, rest⟩ := bind_eq_ok.mp executed
      obtain ⟨herder, active, rest⟩ := bind_eq_ok.mp rest
      split at rest
      · cases rest
      · next card hand taken =>
          dsimp only at rest
          split at rest
          · obtain ⟨dollars, _, result⟩ := bind_eq_ok.mp rest
            cases result
            exact ⟨herder, _, _, active, .discardCard taken, rfl⟩
          · cases rest
            exact ⟨herder, _, _, active, .discardCard taken, rfl⟩
  | gain2Dollars =>
      obtain ⟨herder, active, rest⟩ := bind_eq_ok.mp executed
      obtain ⟨dollars, gained, result⟩ := bind_eq_ok.mp rest
      cases result
      exact ⟨herder, _, _, active, .gain2Dollars gained, rfl⟩
  | buyCattle =>
      obtain ⟨herder, active, rest⟩ := bind_eq_ok.mp executed
      split at rest
      · cases rest
      · next enough =>
          cases rest
          exact ⟨herder, _, _, active, .buyCattle (UInt32.not_lt.mp enough), rfl⟩
  | payToll =>
      obtain ⟨herder, active, rest⟩ := bind_eq_ok.mp executed
      cases rest
      exact ⟨herder, _, _, active, .payToll, rfl⟩

theorem Does.quiet (does : Does trail left herder action next stack outcome) (still : action ≠ .move) :
    next.position = herder.position ∧ stack = left ∧ outcome.followUps = [] := by
  cases does with
  | move => exact absurd rfl still
  | _ => exact ⟨rfl, rfl, rfl⟩

def handAfter : Action → Nat → Nat
  | .drawCard, held => held + 1
  | .discardCard, held => held - 1
  | _, held => held

def bought : Action → Nat
  | .buyCattle => 1
  | _ => 0

theorem Does.hand (does : Does trail left herder action next stack outcome) :
    next.hand.length = handAfter action herder.hand.length := by
  cases does with
  | drawCard => simp [handAfter]
  | discardCard taken => simp [handAfter, (Cards.takeLowest?_perm taken).length_eq]
  | _ => rfl

theorem Does.cards_perm (does : Does trail left herder action next stack outcome) :
    next.cards.Perm (herder.cards ++ List.replicate (bought action) boughtCattleValue) := by
  cases does with
  | @drawCard card deck discard drew =>
      have held := drew.append_left herder.hand
      simpa [Herder.cards, bought] using held
  | @discardCard card hand dollars taken =>
      have held := (Cards.takeLowest?_perm taken).append_right (herder.deck ++ herder.discard)
      have last : (hand ++ (herder.deck ++ (herder.discard ++ [card]))).Perm
          (card :: (hand ++ (herder.deck ++ herder.discard))) := by
        simpa using List.perm_append_singleton card (hand ++ (herder.deck ++ herder.discard))
      simpa [Herder.cards, bought] using last.trans held.symm
  | buyCattle => simp [Herder.cards, bought]
  | _ => simp [Herder.cards, bought]

theorem Does.cards (does : Does trail left herder action next stack outcome) :
    next.cards.length = herder.cards.length + bought action := by
  rw [does.cards_perm.length_eq, List.length_append, List.length_replicate]

/-! ### Herders stay on the trail -/

structure Placed (state : State) : Prop where
  seated : state.current.index < state.herders.count
  laid : state.trail ≠ []
  standing : ∀ herder ∈ state.herders.seats, Track.holds state.trail herder.position = true

theorem validate_eq_ok_iff (state : State) :
    state.validate = .ok () ↔ state.stack.Valid ∧ state.Placed := by
  simp only [validate, bind_unit_eq_ok, Stack.validate_eq_ok_iff, Corruption.unless_eq_ok,
    decide_eq_true_eq, List.all_eq_true]
  constructor
  · rintro ⟨valid, seated, laid, standing⟩
    exact ⟨valid, seated, by simpa using laid, standing⟩
  · rintro ⟨valid, seated, laid, standing⟩
    exact ⟨valid, seated, by simpa using laid, standing⟩

namespace Placed

variable (placed : state.Placed)

include placed

theorem active : ∃ herder, state.active = .ok herder := SeatMap.get_returns placed.seated

theorem standing_active (active : state.active = .ok herder) :
    Track.holds state.trail herder.position = true :=
  placed.standing herder (SeatMap.mem_of_get active)

theorem played (active : state.active = .ok herder)
    (does : Does state.trail left herder action next stack outcome) (pending : Stack Action) :
    (state.played next pending).Placed where
  seated := by
    show state.current.index < (state.herders.set state.current next).count
    rw [SeatMap.count_set]
    exact placed.seated
  laid := placed.laid
  standing other member := by
    rcases SeatMap.mem_set member with before | rfl
    · exact placed.standing other before
    · have standing := placed.standing_active active
      cases does with
      | move advanced => exact Track.holds_here (Track.advance_eq_ok advanced)
      | _ => exact standing

theorem withStack (stack : Stack Action) : Placed { state with stack } :=
  ⟨placed.seated, placed.laid, placed.standing⟩

theorem startNextTurn_returns (counts : state.turn.toNat + 1 < UInt32.size) :
    ∃ next, state.startNextTurn = .ok next := by
  obtain ⟨seat, follows, _⟩ :=
    state.current.next_returns (Nat.lt_of_le_of_lt (Nat.zero_le _) placed.seated)
  have counted : Counter.add32 state.turn 1 = .ok (state.turn + 1) := if_pos counts
  exact ⟨_, by rw [startNextTurn, follows, ok_bind, counted]; rfl⟩

end Placed

theorem startNextTurn_eq_ok {opened : State} (started : state.startNextTurn = .ok opened) :
    ∃ current turn, current.index < state.herders.count ∧
      turn.toNat = state.turn.toNat + 1 ∧
      opened = { state with current, turn, stack := state.stack.push [.mandatory .move] } := by
  obtain ⟨current, follows, rest⟩ := bind_eq_ok.mp started
  obtain ⟨turn, counted, result⟩ := bind_eq_ok.mp rest
  cases result
  exact ⟨current, turn, Seat.next_index_lt follows, Counter.toNat_of_add32 counted, rfl⟩

theorem Placed.opened {opened : State} (placed : state.Placed)
    (started : state.startNextTurn = .ok opened) : opened.Placed := by
  obtain ⟨current, turn, seated, _, rfl⟩ := startNextTurn_eq_ok started
  exact ⟨seated, placed.laid, placed.standing⟩

/-! ### Moves that come back -/

theorem moveOn_allowed (generator : Generator) (placed : state.Placed)
    (few : state.trail.length < UInt64.size) :
    ∃ after outcome, state.execute .move generator = .ok ⟨after, generator, .ok outcome⟩ := by
  obtain ⟨herder, active⟩ := placed.active
  obtain ⟨position, location, advanced⟩ :=
    Track.advance_returns placed.laid few (placed.standing_active active)
  exact ⟨_, _, by rw [execute, moveOn, active, ok_bind, advanced]; rfl⟩

theorem payToll_allowed (generator : Generator) (placed : state.Placed) :
    ∃ after outcome, state.execute .payToll generator = .ok ⟨after, generator, .ok outcome⟩ := by
  obtain ⟨herder, active⟩ := placed.active
  exact ⟨_, _, by rw [execute, payToll, active]; rfl⟩

theorem discardCard_allowed (state : State) (generator : Generator) {location : Option Location}
    (located : state.locationOf state.current = .ok location) (away : location ≠ some .station)
    (active : state.active = .ok herder) (holds : herder.hand ≠ []) :
    ∃ after outcome, state.execute .discardCard generator =
      .ok ⟨after, generator, .ok outcome⟩ := by
  obtain ⟨card, hand, taken⟩ := Cards.takeLowest?_returns holds
  have discarded : state.execute .discardCard generator = .ok ⟨state.withActive
      { herder with hand, discard := herder.discard ++ [card] }, generator, .ok (.none true)⟩ := by
    rw [execute, discardCard, located, ok_bind, active, ok_bind]
    simp only [taken, if_neg away]
    rfl
  exact ⟨_, _, discarded⟩

theorem discardCard_returns (generator : Generator) (placed : state.Placed)
    (active : state.active = .ok herder) (poor : herder.dollars.toNat + 255 < UInt32.size) :
    ∃ executed, state.execute .discardCard generator = .ok executed := by
  obtain ⟨location, located⟩ := Track.locate_returns (placed.standing_active active)
  have here : state.locationOf state.current = .ok location := by
    rw [locationOf, show state.herders.get state.current = .ok herder from active]
    exact located
  rw [execute, discardCard, here, ok_bind, active, ok_bind]
  split
  · exact ⟨_, rfl⟩
  · next card hand taken =>
      have fits : herder.dollars.toNat + card.toUInt32.toNat < UInt32.size := by
        have small := card.toNat_lt
        rw [UInt8.toNat_toUInt32]
        omega
      have earned : Counter.add32 herder.dollars card.toUInt32 =
          .ok (herder.dollars + card.toUInt32) := if_pos fits
      dsimp only
      split
      · exact ⟨_, by rw [earned]; rfl⟩
      · exact ⟨_, rfl⟩

theorem gainDollars_returns (generator : Generator) (active : state.active = .ok herder)
    (poor : herder.dollars.toNat + 255 < UInt32.size) :
    ∃ executed, state.execute .gain2Dollars generator = .ok executed := by
  have fits : herder.dollars.toNat + ranchGain.toNat < UInt32.size := by
    have small : ranchGain.toNat ≤ 255 := by decide
    omega
  have gained : Counter.add32 herder.dollars ranchGain = .ok (herder.dollars + ranchGain) :=
    if_pos fits
  exact ⟨_, by rw [execute, gainDollars, active, ok_bind, gained]; rfl⟩

theorem execute_returns (action : Action) (generator : Generator) (placed : state.Placed)
    (few : state.trail.length < UInt64.size)
    (poor : ∀ herder ∈ state.herders.seats, herder.dollars.toNat + 255 < UInt32.size) :
    ∃ executed, state.execute action generator = .ok executed := by
  obtain ⟨herder, active⟩ := placed.active
  have poor := poor herder (SeatMap.mem_of_get active)
  cases action with
  | move =>
      obtain ⟨after, outcome, moved⟩ := moveOn_allowed generator placed few
      exact ⟨_, moved⟩
  | drawCard =>
      rw [execute, drawCard, active, ok_bind]
      split
      · exact ⟨_, rfl⟩
      · exact ⟨_, rfl⟩
  | discardCard => exact discardCard_returns generator placed active poor
  | gain2Dollars => exact gainDollars_returns generator active poor
  | buyCattle =>
      rw [execute, buyCattle, active, ok_bind]
      split
      · exact ⟨_, rfl⟩
      · exact ⟨_, rfl⟩
  | payToll =>
      obtain ⟨after, outcome, paid⟩ := payToll_allowed generator placed
      exact ⟨_, paid⟩

end State

end TurnObligations.Trail
