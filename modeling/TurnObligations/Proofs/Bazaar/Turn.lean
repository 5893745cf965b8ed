import TurnObligations.Proofs.Bazaar.Phase

/-!
Turns in the bazaar. Whatever is played, skipped, released or taken back, the order is in one of the
phases of a turn, and the active merchant holds the cards that the plays left and the discard ask for.
-/

namespace TurnObligations.Bazaar

open Obligation (mandatory)

/-! ### New games -/

/-- Settings made from the standard ones, one after the other. -/
inductive Setup.Admitted : Setup → Prop
  | standard : Admitted .standard
  | withPlayers {setup after : Setup} {players : Nat} (made : Admitted setup)
      (accepted : setup.withPlayers players = .ok after) : Admitted after
  | withLira {setup : Setup} (lira : UInt32) (made : Admitted setup) : Admitted (setup.withLira lira)
  | withBonusCards {setup : Setup} (bonusCards : List UInt8) (made : Admitted setup) :
      Admitted (setup.withBonusCards bonusCards)
  | withRubyPrice {setup : Setup} (rubyPrice : UInt32) (made : Admitted setup) :
      Admitted (setup.withRubyPrice rubyPrice)
  | withRubiesToWin {setup after : Setup} {rubiesToWin : UInt8} (made : Admitted setup)
      (accepted : setup.withRubiesToWin rubiesToWin = .ok after) : Admitted after
  | withGoodsCapacity {setup after : Setup} {goodsCapacity : UInt8} (made : Admitted setup)
      (accepted : setup.withGoodsCapacity goodsCapacity = .ok after) : Admitted after
  | withPlaces {setup after : Setup} {places : List Place} (made : Admitted setup)
      (accepted : setup.withPlaces places = .ok after) : Admitted after

structure Setup.Sound (setup : Setup) : Prop where
  few : setup.players ≤ 5
  distant : 0 < setup.rules.rubiesToWin
  laid : setup.places ≠ []

theorem Setup.Admitted.sound {setup : Setup} (admitted : setup.Admitted) : setup.Sound := by
  induction admitted with
  | standard => exact ⟨by decide, by decide, nofun⟩
  | withPlayers _ accepted ih =>
      obtain ⟨between, result⟩ := bind_unit_eq_ok.mp accepted
      cases result
      simp only [require_eq_ok_iff, Bool.and_eq_true, decide_eq_true_eq] at between
      exact ⟨between.2, ih.distant, ih.laid⟩
  | withLira _ _ ih => exact ⟨ih.few, ih.distant, ih.laid⟩
  | withBonusCards _ _ ih => exact ⟨ih.few, ih.distant, ih.laid⟩
  | withRubyPrice _ _ ih => exact ⟨ih.few, ih.distant, ih.laid⟩
  | withRubiesToWin _ accepted ih =>
      obtain ⟨distant, result⟩ := bind_unit_eq_ok.mp accepted
      cases result
      exact ⟨ih.few, by simpa [require_eq_ok_iff] using distant, ih.laid⟩
  | withGoodsCapacity _ accepted ih =>
      obtain ⟨_, result⟩ := bind_unit_eq_ok.mp accepted
      cases result
      exact ⟨ih.few, ih.distant, ih.laid⟩
  | withPlaces _ accepted ih =>
      obtain ⟨some, result⟩ := bind_unit_eq_ok.mp accepted
      cases result
      exact ⟨ih.few, ih.distant, by simpa [require_eq_ok_iff] using some⟩

/-! ### Arrivals and openings -/

namespace Shaped

variable {queue next : Queue Action} {plays : Nat}

theorem arrives (shaped : Shaped queue none plays) (place : Place)
    (pushed : queue.push place.obligations = .ok next) :
    Shaped next (some (Phase.arrival place)) plays := by
  obtain ⟨shifted, moved, rfl⟩ := Queue.push_eq_ok_iff.mp pushed
  have kept : (place.obligations.filter fun tree => !tree.isFinal) = place.obligations := by
    cases place <;> rfl
  refine ⟨?_, shaped.pool, ?_⟩
  · rw [kept, shaped.order, Phase.arrival_order]
    simp [Phase.order]
  · rcases shaped.current with released | ⟨_, more⟩ | ⟨pooled, some⟩
    · rw [released] at moved
      exact .inl (Except.ok.inj moved).symm
    · exact absurd rfl more
    · rw [pooled] at moved
      exact .inr (.inr ⟨(Except.ok.inj moved).symm, some⟩)

end Shaped

namespace State

variable {setup : Setup} {state after begun : State} {merchant next : Merchant} {action : Action}
  {left queue : Queue Action} {outcome : Outcome Action} {generator drawn : Generator}
  {phase : Phase} {plays spare : Nat}

theorem Opened.shaped (opened : state.Opened merchant) :
    ∃ plays, Shaped state.queue (some .opening) plays ∧ plays ≤ merchant.bonusCards.length := by
  by_cases holds : 0 < UInt32.ofNat merchant.bonusCards.length
  · have pool : Pool state.queue.anyTime (UInt32.ofNat merchant.bonusCards.length).toNat := by
      rw [opened.anyTime, bonusPlays, if_pos holds]
      exact .playing holds
    refine ⟨_, ⟨opened.order, pool, .inl opened.current⟩, ?_⟩
    rw [UInt32.toNat_ofNat']
    exact Nat.mod_le _ _
  · have pool : Pool state.queue.anyTime 0 := by
      rw [opened.anyTime, bonusPlays, if_neg holds]
      exact .lapsed
    exact ⟨0, ⟨opened.order, pool, .inl opened.current⟩, Nat.zero_le _⟩

/-! ### What a turn keeps whatever is pending -/

/-- The bonus cards of a merchant are those of the settings and those drawn, two in a turn at most. -/
structure Kept (setup : Setup) (spare : Nat) (state : State) : Prop where
  placed : state.Placed
  rules : state.rules = setup.rules
  places : state.places = setup.places
  few : state.merchants.count ≤ 5
  cards : ∀ merchant ∈ state.merchants.seats,
    merchant.bonusCards.length ≤ setup.bonusCards.length + 2 * state.turn.toNat + spare

namespace Kept

theorem mono {more : Nat} (kept : state.Kept setup spare) (within : spare ≤ more) :
    state.Kept setup more where
  placed := kept.placed
  rules := kept.rules
  places := kept.places
  few := kept.few
  cards merchant member := Nat.le_trans (kept.cards merchant member) (by omega)

theorem withQueue (kept : state.Kept setup spare) (queue : Queue Action) :
    Kept setup spare { state with queue } :=
  ⟨kept.placed.withQueue queue, kept.rules, kept.places, kept.few, kept.cards⟩

theorem withActive (kept : state.Kept setup spare) (active : state.active = .ok merchant)
    (does : Does state.rules state.places generator merchant action next outcome) :
    (state.withActive next).Kept setup (spare + gained action) where
  placed := kept.placed.withActive active does
  rules := kept.rules
  places := kept.places
  few := by
    show (state.merchants.set state.current next).count ≤ 5
    rw [SeatMap.count_set]
    exact kept.few
  cards other member := by
    show other.bonusCards.length ≤
      setup.bonusCards.length + 2 * state.turn.toNat + (spare + gained action)
    rcases SeatMap.mem_set member with before | rfl
    · exact Nat.le_trans (kept.cards other before) (by omega)
    · have held := kept.cards merchant (SeatMap.mem_of_get active)
      have more := cardsAfter_le action merchant.bonusCards.length
      rw [does.cards]
      omega

theorem opens (kept : state.Kept setup 2)
    (started : startNextTurn { state with queue := .empty } = .ok begun) :
    begun.Kept setup 0 ∧ ∃ merchant, begun.Opened merchant := by
  have placed := (kept.placed.withQueue .empty).opened rfl started
  obtain ⟨current, turn, seated, counted, same, opened⟩ := startNextTurn_eq_ok rfl started
  refine ⟨?_, opened⟩
  rw [same] at placed ⊢
  refine ⟨placed, kept.rules, kept.places, kept.few, ?_⟩
  intro merchant member
  have counted : turn.toNat = state.turn.toNat + 1 := counted
  have held := kept.cards merchant member
  show merchant.bonusCards.length ≤ setup.bonusCards.length + 2 * turn.toNat + 0
  omega

end Kept

/-! ### Phases -/

structure InPhase (setup : Setup) (phase : Phase) (plays : Nat) (state : State) : Prop where
  shaped : Shaped state.queue (some phase) plays
  kept : state.Kept setup phase.drawn
  backed : ∃ merchant, state.active = .ok merchant ∧ plays + phase.drawn ≤ merchant.bonusCards.length

def InTurn (setup : Setup) (state : State) : Prop := ∃ phase plays, state.InPhase setup phase plays

theorem InPhase.held (inPhase : state.InPhase setup phase plays)
    (active : state.active = .ok merchant) : plays + phase.drawn ≤ merchant.bonusCards.length := by
  obtain ⟨merchant', active', holds⟩ := inPhase.backed
  cases active.symm.trans active'
  exact holds

theorem Opened.inTurn (opened : state.Opened merchant) (kept : state.Kept setup 0) :
    state.InTurn setup := by
  obtain ⟨plays, shaped, backed⟩ := opened.shaped
  exact ⟨.opening, plays, shaped, kept, merchant, opened.active, backed⟩

theorem InTurn.kept (inTurn : state.InTurn setup) : state.Kept setup 2 := by
  obtain ⟨phase, plays, inPhase⟩ := inTurn
  exact inPhase.kept.mono phase.drawn_le

/-- What the pool and the front of the order may still take is in the hands of the active merchant. -/
structure Backed (state : State) (merchant : Merchant) : Prop where
  active : state.active = .ok merchant
  pool : ∃ plays, Pool state.queue.anyTime plays ∧ plays ≤ merchant.bonusCards.length
  discards : ∀ front ∈ state.queue.order.head?,
    front.canPerform .discardBonusCard = .ok true → merchant.bonusCards ≠ []

theorem InTurn.isBacked (inTurn : state.InTurn setup) : ∃ merchant, state.Backed merchant := by
  obtain ⟨phase, plays, inPhase⟩ := inTurn
  obtain ⟨merchant, active, holds⟩ := inPhase.backed
  refine ⟨merchant, active, ⟨plays, inPhase.shaped.pool, by omega⟩, ?_⟩
  intro front first accepts
  rw [inPhase.shaped.order] at first
  cases first
  have drew : 0 < phase.drawn := by
    cases phase <;> first | decide | cases accepts
  exact List.length_pos_iff.mp (by omega)

/-! ### Every call keeps to the phases -/

theorem InPhase.played (inPhase : state.InPhase setup phase plays)
    (accepted : state.queue.perform .playBonusCard = .ok left)
    (active : state.active = .ok merchant)
    (does : Does state.rules state.places generator merchant .playBonusCard next outcome) :
    InTurn setup { state.withActive next with queue := left } := by
  have holds := inPhase.held active
  obtain ⟨fewer, rfl, shaped⟩ := inPhase.shaped.plays_one accepted
  refine ⟨phase, fewer, shaped, (inPhase.kept.withActive active does).withQueue left, next,
    withActive_active active, ?_⟩
  rw [does.cards]
  simp only [cardsAfter]
  omega

theorem InPhase.moved (inPhase : state.InPhase setup phase plays)
    (accepted : state.queue.perform .move = .ok left)
    (active : state.active = .ok merchant)
    (does : Does state.rules state.places generator merchant .move next outcome)
    (pushed : left.push outcome.followUps = .ok queue) :
    InTurn setup { state.withActive next with queue } := by
  have holds := inPhase.held active
  obtain ⟨later, leads, shaped⟩ := inPhase.shaped.performs (by decide) accepted
  -- only the opening of a turn is left by a move, so that no card has been drawn yet
  have opening : phase = .opening ∧ later = none := by
    cases phase <;> cases leads
    exact ⟨rfl, rfl⟩
  obtain ⟨rfl, rfl⟩ := opening
  have kept := (inPhase.kept.withActive active does).withQueue queue
  cases does with
  | @move index place advanced =>
      have dry : (Phase.arrival place).drawn = 0 := by cases place <;> rfl
      refine ⟨.arrival place, plays, shaped.arrives place pushed, ?_, _, withActive_active active, ?_⟩
      · rw [dry]
        exact kept
      · rw [dry]
        exact holds

theorem InPhase.worked {later : Phase} (inPhase : state.InPhase setup phase plays)
    (leads : phase.after action = some (some later)) (shaped : Shaped left (some later) plays)
    (active : state.active = .ok merchant)
    (does : Does state.rules state.places generator merchant action next outcome) :
    InTurn setup { state.withActive next with queue := left } := by
  have holds := inPhase.held active
  obtain ⟨drawn, adds⟩ := Phase.after_keeps leads
  refine ⟨later, plays, shaped, ?_, next, withActive_active active, ?_⟩
  · rw [drawn]
    exact (inPhase.kept.withActive active does).withQueue left
  · rw [does.cards, adds, drawn]
    omega

theorem InPhase.performs (inPhase : state.InPhase setup phase plays)
    (accepted : state.queue.perform action = .ok left)
    (executed : execute action { state with queue := left } generator =
      .ok ⟨after, drawn, .ok outcome⟩)
    (pushed : Container.pushOutcome outcome after.queue = .ok queue) :
    Kept setup 2 { after with queue } ∧
      (queue.order ≠ [] → InTurn setup { after with queue }) := by
  cases execute_executes executed with
  | @done merchant next _ _ undecided active does =>
      have active : state.active = .ok merchant := active
      have does : Does state.rules state.places generator merchant action next outcome := does
      have kept := (inPhase.kept.withActive active does).withQueue queue
      rw [Container.pushOutcome_eq] at pushed
      by_cases moves : action = .move
      · subst moves
        have pushed : left.push outcome.followUps = .ok queue := by
          cases does with
          | @move index place advanced =>
              have asks : place.obligations ≠ [] := by cases place <;> nofun
              rwa [if_neg asks] at pushed
        exact ⟨kept.mono phase.drawn_le, fun _ => inPhase.moved accepted active does pushed⟩
      · rw [if_pos (does.quiet moves).2] at pushed
        cases pushed
        by_cases plays : action = .playBonusCard
        · subst plays
          exact ⟨kept.mono phase.drawn_le, fun _ => inPhase.played accepted active does⟩
        · obtain ⟨later, leads, shaped⟩ := inPhase.shaped.performs plays accepted
          refine ⟨kept.mono (Phase.drawn_after leads), fun remains => ?_⟩
          cases later with
          | none => exact absurd shaped.order remains
          | some later => exact inPhase.worked leads shaped active does

theorem InPhase.skips (inPhase : state.InPhase setup phase plays)
    (accepted : state.queue.skip = .ok left) :
    left.order ≠ [] → InTurn setup { state with queue := left } := by
  intro remains
  rcases inPhase.shaped.skips accepted with rfl | shaped
  · exact absurd rfl remains
  · obtain ⟨merchant, active, holds⟩ := inPhase.backed
    exact ⟨phase, 0, shaped, inPhase.kept.withQueue left, merchant, active, by omega⟩

theorem remains_of_shouldEnd (unfinished : TurnGame.shouldEnd state = false) :
    state.queue.order ≠ [] := by
  have unfinished : state.queue.order.isEmpty = false := unfinished
  simpa using unfinished

theorem upheld (setup : Setup) : Upheld (InTurn setup) (Kept setup 2) (InTurn setup) where
  performs := by
    rintro action state after left queue generator drawn outcome ⟨phase, plays, inPhase⟩ accepted
      executed pushed
    obtain ⟨kept, stays⟩ := inPhase.performs accepted executed pushed
    exact ⟨kept, fun unfinished => stays (remains_of_shouldEnd unfinished)⟩
  skips := by
    rintro state left ⟨phase, plays, inPhase⟩ accepted
    refine ⟨(inPhase.kept.mono phase.drawn_le).withQueue left, fun unfinished => ?_⟩
    exact inPhase.skips accepted (remains_of_shouldEnd unfinished)
  forfeits inTurn _ := inTurn.kept.withQueue _
  starts kept started := by
    obtain ⟨kept, merchant, opened⟩ := Kept.opens kept started
    exact opened.inTurn kept

theorem InTurn.released (inTurn : state.InTurn setup) : state.releaseCurrent.InTurn setup := by
  obtain ⟨phase, plays, inPhase⟩ := inTurn
  exact ⟨phase, plays, inPhase.shaped.release, inPhase.kept.withQueue _, inPhase.backed⟩

theorem InTurn.has_cards {reason : Rejection} (inTurn : state.InTurn setup)
    (accepted : state.queue.perform action = .ok left)
    (rejected : execute action { state with queue := left } generator =
      .ok ⟨after, drawn, .error reason⟩) : reason ≠ .noBonusCards := by
  obtain ⟨phase, plays, inPhase⟩ := inTurn
  cases execute_executes rejected with
  | closed => nofun
  | @rejected merchant _ _ active rejects =>
      have holds := inPhase.held active
      cases rejects with
      | sellGoods => nofun
      | buyRuby => nofun
      | discardBonusCard none =>
          obtain ⟨later, leads, _⟩ := inPhase.shaped.performs (by decide) accepted
          have drew := Phase.drawn_of_discards leads
          rw [none, List.length_nil] at holds
          omega
      | playBonusCard none =>
          obtain ⟨fewer, some, _⟩ := inPhase.shaped.plays_one accepted
          rw [none, List.length_nil] at holds
          omega

/-! ### Nobody is ever stuck -/

theorem canGoOn_of_allowed {play : Play State} {taken : Snapshot}
    (inPhase : play.game.InPhase setup phase plays)
    (counts : play.game.turn.toNat + 1 < UInt32.size)
    (snapped : TurnGame.snapshot play.game = .ok taken)
    (accepted : play.game.queue.perform action = .ok left)
    (executed : execute action { play.game with queue := left } generator =
      .ok ⟨after, drawn, .ok outcome⟩) : play.CanGoOn generator := by
  have valid := inPhase.shaped.valid
  obtain ⟨leftValid, shorter⟩ := Queue.perform_valid valid accepted
  have few : left.length + 2 ≤ Obligation.capacity := by
    have short := inPhase.shaped.length_le
    simp only [Obligation.capacity, UInt64.size]
    omega
  obtain ⟨queue, pushed⟩ := pushOutcome_returns executed leftValid few
  obtain ⟨kept, _⟩ := inPhase.performs accepted executed pushed
  have counts : after.turn.toNat + 1 < UInt32.size := by
    cases execute_executes executed with
    | done => exact counts
  exact Play.canGoOn_of_perform snapped valid.decided.predicted accepted executed
    pushed (kept.placed.startable counts)

theorem InTurn.canGoOn {play : Play State} {taken : Snapshot} (generator : Generator)
    (inTurn : play.game.InTurn setup) (few : setup.places.length < UInt64.size)
    (undecided : play.game.winner? = none) (counts : play.game.turn.toNat + 1 < UInt32.size)
    (snapped : TurnGame.snapshot play.game = .ok taken) : play.CanGoOn generator := by
  obtain ⟨phase, plays, inPhase⟩ := inTurn
  have shaped := inPhase.shaped
  have kept := inPhase.kept
  obtain ⟨merchant, active, holds⟩ := inPhase.backed
  have startable (queue : Queue Action) : Startable { play.game with queue } :=
    (kept.placed.withQueue queue).startable counts
  -- plays half way through may be given up, and otherwise it is the turn of the order
  by_cases focused : play.game.queue.current = some (.anyTime 0)
  · obtain ⟨next, skipped, _⟩ := shaped.skip_pool focused
    exact Play.canGoOn_of_skip snapped skipped (startable next)
  · rcases phase.exits with optional | ⟨action, later, leads, working⟩
    · have skipped : play.game.queue.skip = .ok .empty := by
        rw [shaped.skip_order focused, if_pos optional]
      exact Play.canGoOn_of_skip snapped skipped (startable .empty)
    · have other : action ≠ .playBonusCard := by
        rcases working with rfl | rfl | rfl | ⟨rfl, _⟩ <;> nofun
      obtain ⟨consumed, accepted⟩ : ∃ consumed, play.game.queue.perform action = .ok consumed :=
        ⟨_, by rw [shaped.perform_eq focused fun _ => shaped.pool.refuses other, leads]⟩
      have placed := kept.placed.withQueue consumed
      have undecided : winner? { play.game with queue := consumed } = none := undecided
      rcases working with rfl | rfl | rfl | ⟨rfl, drew⟩
      · obtain ⟨after, drawn, outcome, moved⟩ :=
          moveOn_allowed undecided generator placed (kept.places ▸ few)
        exact canGoOn_of_allowed inPhase counts snapped accepted moved
      · obtain ⟨after, drawn, outcome, took⟩ := takeGoods_allowed undecided generator placed
        exact canGoOn_of_allowed inPhase counts snapped accepted took
      · obtain ⟨after, drawn, outcome, drew⟩ := drawBonusCard_allowed undecided generator placed
        exact canGoOn_of_allowed inPhase counts snapped accepted drew
      · have held : merchant.bonusCards ≠ [] := List.length_pos_iff.mp (by omega)
        obtain ⟨after, drawn, outcome, discarded⟩ := discardBonusCard_allowed
          undecided generator active held
        exact canGoOn_of_allowed inPhase counts snapped accepted discarded

end State

/-! ### From the start -/

theorem build_eq_ok {setup : Setup} {state : State} (built : setup.build = .ok state) :
    state.rules = setup.rules ∧ state.places = setup.places ∧ state.turn = 0 ∧
      (∀ merchant ∈ state.merchants.seats, merchant = ⟨none, setup.lira, 0, 0, setup.bonusCards⟩) ∧
      ∃ merchant, state.Opened merchant := by
  obtain ⟨merchants, seated, opened⟩ := bind_eq_ok.mp built
  obtain ⟨same, opens⟩ := State.openTurn_cases rfl opened
  rw [same]
  refine ⟨rfl, rfl, rfl, ?_, same ▸ opens⟩
  intro merchant member
  obtain ⟨seat, entered⟩ := SeatMap.mem_of_build seated merchant member
  exact (Except.ok.inj entered).symm

theorem build_kept {setup : Setup} {state : State} (admitted : setup.Admitted)
    (built : setup.build = .ok state) : state.Kept setup 0 := by
  obtain ⟨few, _, laid⟩ := admitted.sound
  obtain ⟨rules, places, turn, fresh, _⟩ := build_eq_ok built
  obtain ⟨⟨occupied, _⟩, round⟩ := build_round built
  have count : state.merchants.count = setup.players := congrArg Round.players round
  have first : state.current = ⟨0⟩ := congrArg Round.seat round
  refine ⟨⟨?_, places ▸ laid, ?_⟩, rules, places, by omega, ?_⟩
  · rw [first, count]
    exact occupied
  · intro merchant member
    rw [fresh merchant member]
    rfl
  · intro merchant member
    rw [fresh merchant member]
    exact Nat.le_add_right _ _

theorem build_inTurn {setup : Setup} {state : State} (admitted : setup.Admitted)
    (built : setup.build = .ok state) : state.InTurn setup := by
  obtain ⟨_, _, _, _, merchant, opened⟩ := build_eq_ok built
  exact opened.inTurn (build_kept admitted built)

end TurnObligations.Bazaar
