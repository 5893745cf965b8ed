import TurnObligations.Proofs.Bazaar.Game
import TurnObligations.Proofs.Queue.Run
import TurnObligations.Proofs.Track
import TurnObligations.Proofs.Turn.Total

/-!
What each move in the bazaar does to the active merchant, where it comes back with an answer, and that
merchants never leave the bazaar.
-/

namespace TurnObligations.Bazaar.State

variable {state after begun : State} {merchant next : Merchant} {action : Action}
  {generator drawn : Generator} {outcome : Outcome Action}

/-! ### The winner -/

theorem winner?_eq_none_iff (state : State) :
    state.winner? = none ↔
      ∀ merchant ∈ state.merchants.seats, merchant.rubies < state.rules.rubiesToWin := by
  simp only [winner?, Option.map_eq_none_iff, List.find?_eq_none, SeatMap.entries,
    List.mem_mapIdx, decide_eq_true_eq, UInt8.not_le]
  constructor
  · intro none merchant member
    obtain ⟨index, bound, rfl⟩ := List.getElem_of_mem member
    exact none _ ⟨index, bound, rfl⟩
  · rintro none _ ⟨index, bound, rfl⟩
    exact none _ (List.getElem_mem bound)

/-! ### What an allowed move does -/

/-- What an allowed move makes of the active merchant, and what follows from it. -/
inductive Does (rules : Rules) (places : List Place) (generator : Generator) (merchant : Merchant) :
    Action → Merchant → Outcome Action → Prop
  | move {index : UInt64} {place : Place}
      (advanced : Track.advance places merchant.place = .ok (index, place)) :
      Does rules places generator merchant .move { merchant with place := some index }
        ⟨place.obligations, true⟩
  | takeGoods :
      Does rules places generator merchant .takeGoods
        { merchant with goods := Merchant.goodsAfterTake rules.goodsCapacity merchant.goods }
        (.none true)
  | sellGoods {lira : UInt32} (held : merchant.goods ≠ 0)
      (paid : Counter.add32 merchant.lira liraPerGood = .ok lira) :
      Does rules places generator merchant .sellGoods
        { merchant with goods := merchant.goods - 1, lira } (.none true)
  | buyRuby {rubies : UInt8} (enough : rules.rubyPrice ≤ merchant.lira)
      (counted : Counter.add8 merchant.rubies 1 = .ok rubies) :
      Does rules places generator merchant .buyRuby
        { merchant with lira := merchant.lira - rules.rubyPrice, rubies } (.none true)
  | drawBonusCard {index : Nat} {drawn : Generator}
      (rolled : generator.index bonusCardMax = .ok (index, drawn)) :
      Does rules places generator merchant .drawBonusCard
        { merchant with bonusCards := merchant.bonusCards ++ [UInt8.ofNat (1 + index)] }
        (.none false)
  | discardBonusCard {card : UInt8} {bonusCards : List UInt8}
      (taken : Cards.takeLowest? merchant.bonusCards = some (card, bonusCards)) :
      Does rules places generator merchant .discardBonusCard { merchant with bonusCards }
        (.none true)
  | playBonusCard {card : UInt8} {bonusCards : List UInt8} {lira : UInt32}
      (taken : Cards.takeHighest? merchant.bonusCards = some (card, bonusCards))
      (paid : Counter.add32 merchant.lira card.toUInt32 = .ok lira) :
      Does rules places generator merchant .playBonusCard { merchant with lira, bonusCards }
        (.none true)

inductive Rejects (rules : Rules) (merchant : Merchant) : Action → Rejection → Prop
  | sellGoods (none : merchant.goods = 0) : Rejects rules merchant .sellGoods .noGoods
  | buyRuby (poor : merchant.lira < rules.rubyPrice) :
      Rejects rules merchant .buyRuby (.notEnoughLira rules.rubyPrice merchant.lira)
  | discardBonusCard (none : merchant.bonusCards = []) :
      Rejects rules merchant .discardBonusCard .noBonusCards
  | playBonusCard (none : merchant.bonusCards = []) :
      Rejects rules merchant .playBonusCard .noBonusCards

inductive Executes (state : State) (generator : Generator) (action : Action) :
    Executed State Action Rejection → Prop
  | closed {winner : Seat} (won : state.winner? = some winner) :
      Executes state generator action ⟨state, generator, .error (.gameOver winner)⟩
  | rejected {merchant : Merchant} {reason : Rejection} (undecided : state.winner? = none)
      (active : state.active = .ok merchant)
      (rejects : Rejects state.rules merchant action reason) :
      Executes state generator action ⟨state, generator, .error reason⟩
  | done {merchant next : Merchant} {outcome : Outcome Action} {drawn : Generator}
      (undecided : state.winner? = none) (active : state.active = .ok merchant)
      (does : Does state.rules state.places generator merchant action next outcome) :
      Executes state generator action ⟨state.withActive next, drawn, .ok outcome⟩

theorem execute_executes {executed : Executed State Action Rejection}
    (answered : state.execute action generator = .ok executed) :
    Executes state generator action executed := by
  unfold execute at answered
  split at answered
  · next won =>
      cases answered
      exact .closed won
  · next undecided =>
      cases action with
      | move =>
          obtain ⟨merchant, active, rest⟩ := bind_eq_ok.mp answered
          obtain ⟨⟨index, place⟩, advanced, result⟩ := bind_eq_ok.mp rest
          cases result
          exact .done undecided active (.move advanced)
      | takeGoods =>
          obtain ⟨merchant, active, result⟩ := bind_eq_ok.mp answered
          cases result
          exact .done undecided active .takeGoods
      | sellGoods =>
          obtain ⟨merchant, active, rest⟩ := bind_eq_ok.mp answered
          split at rest
          · next none =>
              cases rest
              exact .rejected undecided active (.sellGoods none)
          · next held =>
              obtain ⟨lira, paid, result⟩ := bind_eq_ok.mp rest
              cases result
              exact .done undecided active (.sellGoods held paid)
      | buyRuby =>
          obtain ⟨merchant, active, rest⟩ := bind_eq_ok.mp answered
          dsimp only at rest
          split at rest
          · next poor =>
              cases rest
              exact .rejected undecided active (.buyRuby poor)
          · next enough =>
              obtain ⟨rubies, counted, result⟩ := bind_eq_ok.mp rest
              cases result
              exact .done undecided active (.buyRuby (UInt32.not_lt.mp enough) counted)
      | drawBonusCard =>
          obtain ⟨⟨index, drawn⟩, rolled, rest⟩ := bind_eq_ok.mp answered
          obtain ⟨merchant, active, result⟩ := bind_eq_ok.mp rest
          cases result
          exact .done undecided active (.drawBonusCard rolled)
      | discardBonusCard =>
          obtain ⟨merchant, active, rest⟩ := bind_eq_ok.mp answered
          split at rest
          · next none =>
              cases rest
              exact .rejected undecided active (.discardBonusCard (Cards.takeLowest?_eq_none none))
          · next card bonusCards taken =>
              cases rest
              exact .done undecided active (.discardBonusCard taken)
      | playBonusCard =>
          obtain ⟨merchant, active, rest⟩ := bind_eq_ok.mp answered
          split at rest
          · next none =>
              cases rest
              exact .rejected undecided active (.playBonusCard (Cards.takeHighest?_eq_none none))
          · next card bonusCards taken =>
              obtain ⟨lira, paid, result⟩ := bind_eq_ok.mp rest
              cases result
              exact .done undecided active (.playBonusCard taken paid)

theorem Does.quiet {rules : Rules} {places : List Place}
    (does : Does rules places generator merchant action next outcome) (still : action ≠ .move) :
    next.place = merchant.place ∧ outcome.followUps = [] := by
  cases does with
  | move => exact absurd rfl still
  | _ => exact ⟨rfl, rfl⟩

theorem Does.followUps_le {rules : Rules} {places : List Place}
    (does : Does rules places generator merchant action next outcome) :
    outcome.followUps.length ≤ 2 := by
  cases does with
  | @move index place advanced => cases place <;> decide
  | _ => exact Nat.zero_le 2

def cardsAfter : Action → Nat → Nat
  | .drawBonusCard, held => held + 1
  | .discardBonusCard, held => held - 1
  | .playBonusCard, held => held - 1
  | _, held => held

def gained : Action → Nat
  | .drawBonusCard => 1
  | _ => 0

theorem cardsAfter_le (action : Action) (held : Nat) :
    cardsAfter action held ≤ held + gained action := by
  cases action with
  | discardBonusCard => exact Nat.sub_le held 1
  | playBonusCard => exact Nat.sub_le held 1
  | _ => exact Nat.le_refl _

theorem Does.cards {rules : Rules} {places : List Place}
    (does : Does rules places generator merchant action next outcome) :
    next.bonusCards.length = cardsAfter action merchant.bonusCards.length := by
  cases does with
  | drawBonusCard => simp [cardsAfter]
  | discardBonusCard taken => simp [cardsAfter, (Cards.takeLowest?_perm taken).length_eq]
  | playBonusCard taken => simp [cardsAfter, (Cards.takeHighest?_perm taken).length_eq]
  | _ => rfl

theorem Does.rubies {rules : Rules} {places : List Place}
    (does : Does rules places generator merchant action next outcome) :
    (action ≠ .buyRuby ∧ next.rubies = merchant.rubies) ∨
      (action = .buyRuby ∧ next.rubies.toNat = merchant.rubies.toNat + 1) := by
  cases does with
  | buyRuby _ counted => exact .inr ⟨rfl, Counter.toNat_of_add8 counted⟩
  | _ => exact .inl ⟨nofun, rfl⟩

/-! ### Merchants stay in the bazaar -/

structure Placed (state : State) : Prop where
  seated : state.current.index < state.merchants.count
  laid : state.places ≠ []
  standing : ∀ merchant ∈ state.merchants.seats, Track.holds state.places merchant.place = true

theorem validate_eq_ok_iff (state : State) :
    state.validate = .ok () ↔ state.queue.Valid ∧ state.Placed := by
  simp only [validate, bind_unit_eq_ok, Queue.validate_eq_ok_iff, Corruption.unless_eq_ok,
    decide_eq_true_eq, List.all_eq_true]
  constructor
  · rintro ⟨valid, seated, laid, standing⟩
    exact ⟨valid, seated, by simpa using laid, standing⟩
  · rintro ⟨valid, seated, laid, standing⟩
    exact ⟨valid, seated, by simpa using laid, standing⟩

theorem withActive_active (active : state.active = .ok merchant) :
    (state.withActive next).active = .ok next := SeatMap.get_set active

namespace Placed

variable (placed : state.Placed)

include placed

theorem withQueue (queue : Queue Action) : Placed { state with queue } :=
  ⟨placed.seated, placed.laid, placed.standing⟩

theorem active : ∃ merchant, state.active = .ok merchant := SeatMap.get_returns placed.seated

theorem standing_active (active : state.active = .ok merchant) :
    Track.holds state.places merchant.place = true :=
  placed.standing merchant (SeatMap.mem_of_get active)

theorem withActive (active : state.active = .ok merchant)
    (does : Does state.rules state.places generator merchant action next outcome) :
    (state.withActive next).Placed where
  seated := by
    show state.current.index < (state.merchants.set state.current next).count
    rw [SeatMap.count_set]
    exact placed.seated
  laid := placed.laid
  standing other member := by
    rcases SeatMap.mem_set member with before | rfl
    · exact placed.standing other before
    · have standing := placed.standing_active active
      cases does with
      | move advanced => exact Track.holds_here (Track.advance_eq_ok advanced)
      | _ => exact standing

end Placed

/-! ### The next turn -/

theorem startNextTurn_eq_ok (cleared : state.queue = .empty)
    (started : state.startNextTurn = .ok begun) :
    ∃ current turn, current.index < state.merchants.count ∧
      turn.toNat = state.turn.toNat + 1 ∧
      begun = { state with current, turn, queue := begun.queue } ∧
      ∃ merchant, Opened begun merchant := by
  obtain ⟨current, follows, rest⟩ := bind_eq_ok.mp started
  obtain ⟨turn, counted, opened⟩ := bind_eq_ok.mp rest
  have cleared : State.queue { state with current, turn } = .empty := cleared
  obtain ⟨same, opens⟩ := openTurn_cases cleared opened
  exact ⟨current, turn, Seat.next_index_lt follows, Counter.toNat_of_add32 counted, same, opens⟩

theorem openTurn_returns (state : State) (cleared : state.queue = .empty) (placed : state.Placed) :
    ∃ begun, state.openTurn = .ok begun := by
  obtain ⟨merchant, active⟩ := placed.active
  have pushed : state.queue.push [.mandatory .move] =
      .ok ⟨[], [.mandatory .move], none, Nat.zero_le _⟩ := by
    rw [cleared]
    rfl
  rw [openTurn, pushed, ok_bind, active, ok_bind]
  dsimp only
  split
  · have room : Queue.length ⟨[], [.mandatory Action.move], none, Nat.zero_le _⟩ + 1 ≤
        Obligation.capacity := by decide
    obtain ⟨queue, plays⟩ := Queue.pushAnyTime_goes_through room
    exact ⟨_, by rw [plays]; rfl⟩
  · exact ⟨_, rfl⟩

theorem startNextTurn_returns (cleared : state.queue = .empty) (placed : state.Placed)
    (counts : state.turn.toNat + 1 < UInt32.size) : ∃ begun, state.startNextTurn = .ok begun := by
  obtain ⟨seat, follows, seated⟩ :=
    state.current.next_returns (Nat.lt_of_le_of_lt (Nat.zero_le _) placed.seated)
  have counted : Counter.add32 state.turn 1 = .ok (state.turn + 1) := if_pos counts
  rw [startNextTurn, follows, ok_bind, counted, ok_bind]
  exact openTurn_returns { state with current := seat, turn := state.turn + 1 } cleared
    ⟨seated, placed.laid, placed.standing⟩

theorem Placed.startable (placed : state.Placed) (counts : state.turn.toNat + 1 < UInt32.size) :
    Startable state := startNextTurn_returns rfl (placed.withQueue .empty) counts

theorem Placed.opened (placed : state.Placed) (cleared : state.queue = .empty)
    (started : state.startNextTurn = .ok begun) : begun.Placed := by
  obtain ⟨current, turn, seated, _, same, _⟩ := startNextTurn_eq_ok cleared started
  rw [same]
  exact ⟨seated, placed.laid, placed.standing⟩

/-! ### Moves that come back -/

-- The equations of `execute` are made once, before the many proofs below that open it.
attribute [local simp] execute

theorem pushOutcome_returns
    (executed : state.execute action generator = .ok ⟨after, drawn, .ok outcome⟩)
    (valid : state.queue.Valid) (few : state.queue.length + 2 ≤ Obligation.capacity) :
    ∃ left, Container.pushOutcome outcome after.queue = .ok left := by
  cases execute_executes executed with
  | done undecided active does =>
      rw [Container.pushOutcome]
      split
      · exact Queue.push_goes_through valid (Nat.le_trans (Nat.add_le_add_left does.followUps_le _) few)
      · exact ⟨_, rfl⟩

section Allowed

variable (undecided : state.winner? = none)

include undecided

theorem moveOn_allowed (generator : Generator) (placed : state.Placed)
    (few : state.places.length < UInt64.size) :
    ∃ after drawn outcome, state.execute .move generator = .ok ⟨after, drawn, .ok outcome⟩ := by
  obtain ⟨merchant, active⟩ := placed.active
  obtain ⟨index, place, advanced⟩ :=
    Track.advance_returns placed.laid few (placed.standing_active active)
  simp only [execute, undecided, moveOn, active, ok_bind, advanced]
  exact ⟨_, _, _, rfl⟩

theorem takeGoods_allowed (generator : Generator) (placed : state.Placed) :
    ∃ after drawn outcome,
      state.execute .takeGoods generator = .ok ⟨after, drawn, .ok outcome⟩ := by
  obtain ⟨merchant, active⟩ := placed.active
  simp only [execute, undecided, takeGoods, active, ok_bind]
  exact ⟨_, _, _, rfl⟩

theorem drawBonusCard_allowed (generator : Generator) (placed : state.Placed) :
    ∃ after drawn outcome,
      state.execute .drawBonusCard generator = .ok ⟨after, drawn, .ok outcome⟩ := by
  obtain ⟨merchant, active⟩ := placed.active
  have rolled : generator.index bonusCardMax =
      .ok (Generator.below 64 Generator.draw64 bonusCardMax Generator.maxRejections generator) := rfl
  simp only [execute, undecided, drawBonusCard, rolled, active, ok_bind]
  exact ⟨_, _, _, rfl⟩

theorem discardBonusCard_allowed (generator : Generator) (active : state.active = .ok merchant)
    (holds : merchant.bonusCards ≠ []) :
    ∃ after drawn outcome,
      state.execute .discardBonusCard generator = .ok ⟨after, drawn, .ok outcome⟩ := by
  obtain ⟨card, rest, taken⟩ := Cards.takeLowest?_returns holds
  simp only [execute, undecided, discardBonusCard, active, ok_bind, taken]
  exact ⟨_, _, _, rfl⟩

end Allowed

/-- A merchant who had as many rubies as fit in a byte would have won. -/
theorem buyRuby_returns (generator : Generator) (placed : state.Placed) :
    ∃ executed, state.execute .buyRuby generator = .ok executed := by
  obtain ⟨merchant, active⟩ := placed.active
  cases won : state.winner? with
  | some winner => exact ⟨_, by simp only [execute, won]; rfl⟩
  | none =>
      have short := (winner?_eq_none_iff state).mp won merchant (SeatMap.mem_of_get active)
      have fits : merchant.rubies.toNat + (1 : UInt8).toNat < UInt8.size :=
        Nat.lt_of_le_of_lt (UInt8.lt_iff_toNat_lt.mp short) state.rules.rubiesToWin.toNat_lt
      have counted : Counter.add8 merchant.rubies 1 = .ok (merchant.rubies + 1) := if_pos fits
      simp only [execute, won, buyRuby, active, ok_bind, counted]
      split
      · exact ⟨_, rfl⟩
      · exact ⟨_, rfl⟩

theorem execute_returns (action : Action) (generator : Generator) (placed : state.Placed)
    (few : state.places.length < UInt64.size)
    (poor : ∀ merchant ∈ state.merchants.seats, merchant.lira.toNat + 255 < UInt32.size) :
    ∃ executed, state.execute action generator = .ok executed := by
  obtain ⟨merchant, active⟩ := placed.active
  have poor := poor merchant (SeatMap.mem_of_get active)
  cases won : state.winner? with
  | some winner => exact ⟨_, by simp only [execute, won]; rfl⟩
  | none =>
      cases action with
      | move =>
          obtain ⟨after, drawn, outcome, moved⟩ := moveOn_allowed won generator placed few
          exact ⟨_, moved⟩
      | takeGoods =>
          obtain ⟨after, drawn, outcome, took⟩ := takeGoods_allowed won generator placed
          exact ⟨_, took⟩
      | sellGoods =>
          have fits : merchant.lira.toNat + liraPerGood.toNat < UInt32.size := by
            have small : liraPerGood.toNat ≤ 255 := by decide
            omega
          have paid : Counter.add32 merchant.lira liraPerGood = .ok (merchant.lira + liraPerGood) :=
            if_pos fits
          simp only [execute, won, sellGoods, active, ok_bind, paid]
          split
          · exact ⟨_, rfl⟩
          · exact ⟨_, rfl⟩
      | buyRuby => exact buyRuby_returns generator placed
      | drawBonusCard =>
          obtain ⟨after, drawn, outcome, drew⟩ := drawBonusCard_allowed won generator placed
          exact ⟨_, drew⟩
      | discardBonusCard =>
          simp only [execute, won, discardBonusCard, active, ok_bind]
          split
          · exact ⟨_, rfl⟩
          · exact ⟨_, rfl⟩
      | playBonusCard =>
          simp only [execute, won, playBonusCard, active, ok_bind]
          split
          · exact ⟨_, rfl⟩
          · next card bonusCards taken =>
              have fits : merchant.lira.toNat + card.toUInt32.toNat < UInt32.size := by
                have small := card.toNat_lt
                rw [UInt8.toNat_toUInt32]
                omega
              have paid : Counter.add32 merchant.lira card.toUInt32 =
                  .ok (merchant.lira + card.toUInt32) := if_pos fits
              simp only [paid, ok_bind]
              exact ⟨_, rfl⟩

end TurnObligations.Bazaar.State
