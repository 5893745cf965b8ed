import Mathlib
import TurnObligations.Proofs.Bazaar.Size

/-!
What merchants are worth. A move that goes through changes what its own merchant has, by an amount that
the move tells, and nothing else in the bazaar changes what anybody has.
-/

namespace TurnObligations.Bazaar

namespace Merchant

/-- Lira, goods and rubies at what one brings or costs, and the lira that the cards would bring. -/
def worth (rules : Rules) (merchant : Merchant) : Int :=
  merchant.lira.toNat + 3 * merchant.goods.toNat + rules.rubyPrice.toNat * merchant.rubies.toNat +
    (merchant.bonusCards.map UInt8.toNat).sum

end Merchant

namespace State

variable {state after begun : State} {merchant next : Merchant} {action : Action}
  {left queue : Queue Action} {outcome : Outcome Action} {generator drawn : Generator}
  {rules : Rules} {places : List Place}

/-! ### What a move earns -/

/-- What a move adds to the worth of the merchant who makes it. -/
inductive Earns (rules : Rules) (generator : Generator) (merchant : Merchant) : Action → Int → Prop
  | move : Earns rules generator merchant .move 0
  | takeGoods : Earns rules generator merchant .takeGoods
      (3 * (min (merchant.goods.toNat + 2) rules.goodsCapacity.toNat - merchant.goods.toNat))
  | sellGoods : Earns rules generator merchant .sellGoods 0
  | buyRuby : Earns rules generator merchant .buyRuby 0
  | drawBonusCard {index : Nat} {drawn : Generator}
      (rolled : generator.index 3 = .ok (index, drawn)) (within : index < 3) :
      Earns rules generator merchant .drawBonusCard (1 + index)
  | discardBonusCard {card : UInt8} (held : card ∈ merchant.bonusCards)
      (lowest : ∀ other ∈ merchant.bonusCards, card ≤ other) :
      Earns rules generator merchant .discardBonusCard (-card.toNat)
  | playBonusCard : Earns rules generator merchant .playBonusCard 0

theorem Earns.takes {gain : Int} (earns : Earns rules generator merchant .takeGoods gain)
    (stocked : merchant.goods ≤ rules.goodsCapacity) : 0 ≤ gain := by
  have stocked := UInt8.le_iff_toNat_le.mp stocked
  cases earns with
  | takeGoods => omega

theorem toNat_goodsAfterTake (capacity goods : UInt8) :
    (Merchant.goodsAfterTake capacity goods).toNat = min (goods.toNat + 2) capacity.toNat := by
  have small := capacity.toNat_lt
  have fits : min (min (goods.toNat + goodsPerTake.toNat) 255) capacity.toNat < UInt8.size := by
    simp only [UInt8.size]
    omega
  have two : goodsPerTake.toNat = 2 := rfl
  rw [Merchant.goodsAfterTake, UInt8.toNat_ofNat_of_lt' fits, two]
  omega

theorem toNat_goods_sub_one {goods : UInt8} (held : goods ≠ 0) :
    0 < goods.toNat ∧ (goods - 1).toNat = goods.toNat - 1 := by
  have some : 0 < goods.toNat := Nat.pos_of_ne_zero fun none => held (UInt8.toNat_inj.mp none)
  exact ⟨some, UInt8.toNat_sub_of_le _ _ (UInt8.le_iff_toNat_le.mpr some)⟩

theorem Does.earns (does : Does rules places generator merchant action next outcome) :
    ∃ gain, Earns rules generator merchant action gain ∧
      next.worth rules = merchant.worth rules + gain := by
  cases does with
  | move => exact ⟨0, .move, by simp [Merchant.worth]⟩
  | takeGoods =>
      refine ⟨_, .takeGoods, ?_⟩
      have taken := toNat_goodsAfterTake rules.goodsCapacity merchant.goods
      simp only [Merchant.worth]
      omega
  | sellGoods held paid =>
      refine ⟨0, .sellGoods, ?_⟩
      obtain ⟨some, sold⟩ := toNat_goods_sub_one held
      have earned := Counter.toNat_of_add32 paid
      have three : liraPerGood.toNat = 3 := rfl
      simp only [Merchant.worth]
      omega
  | buyRuby enough counted =>
      refine ⟨0, .buyRuby, ?_⟩
      have paid := UInt32.toNat_sub_of_le _ _ enough
      have enough := UInt32.le_iff_toNat_le.mp enough
      have one : (1 : UInt8).toNat = 1 := rfl
      have more := Counter.toNat_of_add8 counted
      simp only [Merchant.worth, paid, more, one]
      push_cast [Nat.cast_sub enough]
      ring
  | drawBonusCard rolled =>
      have within := Generator.index_lt rolled
      refine ⟨_, .drawBonusCard rolled within, ?_⟩
      have face : (UInt8.ofNat (1 + _)).toNat = 1 + _ := UInt8.toNat_ofNat_of_lt'
        (Nat.lt_of_lt_of_le (Nat.add_lt_add_left within 1) (by decide))
      simp only [Merchant.worth, List.map_append, List.sum_append, List.map_singleton,
        List.sum_singleton, face]
      push_cast
      ring
  | discardBonusCard taken =>
      have hand := Cards.takeLowest?_perm taken
      refine ⟨_, .discardBonusCard (hand.symm.subset (by simp)) (Cards.takeLowest?_le taken), ?_⟩
      have cards := (hand.map UInt8.toNat).sum_eq
      simp only [List.map_cons, List.sum_cons] at cards
      simp only [Merchant.worth, cards]
      push_cast
      ring
  | playBonusCard taken paid =>
      refine ⟨0, .playBonusCard, ?_⟩
      have cards := ((Cards.takeHighest?_perm taken).map UInt8.toNat).sum_eq
      simp only [List.map_cons, List.sum_cons] at cards
      have paid := Counter.toNat_of_add32 paid
      rw [UInt8.toNat_toUInt32] at paid
      simp only [Merchant.worth, cards, paid]
      push_cast
      ring

/-! ### Who is changed -/

def board (state : State) : Rules × List Place × SeatMap Merchant :=
  (state.rules, state.places, state.merchants)

theorem unturned_board : Play.Unturned board where
  pends _ _ := rfl
  starts started := by
    obtain ⟨current, turn, _, _, same, _⟩ := startNextTurn_eq_ok rfl started
    rw [same]
    rfl

theorem unturned_merchants : Play.Unturned State.merchants where
  pends _ _ := rfl
  starts started := congrArg (fun seen => seen.2.2) (unturned_board.starts started)

theorem perform_merchants {play : Play State} {report : Report State Action Rejection TurnStatus}
    {status : TurnStatus} (performed : play.perform action generator = .ok report)
    (happened : report.result = .ok status) :
    report.play.game.rules = play.game.rules ∧ report.play.game.places = play.game.places ∧
      ∃ merchant next outcome, play.game.active = .ok merchant ∧
        report.play.game.merchants = play.game.merchants.set play.game.current next ∧
        Does play.game.rules play.game.places generator merchant action next outcome := by
  obtain ⟨consumed, game, drawn, outcome, executed, seen⟩ :=
    unturned_board.performs performed happened
  simp only [board, Prod.mk.injEq] at seen
  obtain ⟨rules, places, merchants⟩ := seen
  cases execute_executes executed with
  | done _ active does => exact ⟨rules, places, _, _, _, active, merchants, does⟩

/-! ### Stocks -/

def Stocked (state : State) : Prop :=
  ∀ merchant ∈ state.merchants.seats, merchant.goods ≤ state.rules.goodsCapacity

theorem Does.stocked (does : Does rules places generator merchant action next outcome)
    (stocked : merchant.goods ≤ rules.goodsCapacity) : next.goods ≤ rules.goodsCapacity := by
  rw [UInt8.le_iff_toNat_le] at stocked ⊢
  cases does with
  | takeGoods =>
      rw [toNat_goodsAfterTake]
      exact Nat.min_le_right _ _
  | sellGoods held paid =>
      obtain ⟨_, sold⟩ := toNat_goods_sub_one held
      show (merchant.goods - 1).toNat ≤ _
      omega
  | _ => exact stocked

theorem Stocked.of_board (stocked : state.Stocked) (same : after.board = state.board) :
    after.Stocked := by
  simp only [board, Prod.mk.injEq] at same
  obtain ⟨rules, _, merchants⟩ := same
  rw [Stocked, rules, merchants]
  exact stocked

theorem Stocked.executes (stocked : state.Stocked)
    (executed : state.execute action generator = .ok ⟨after, drawn, .ok outcome⟩) :
    after.Stocked := by
  cases execute_executes executed with
  | done _ active does =>
      intro other member
      rcases SeatMap.mem_set member with before | rfl
      · exact stocked other before
      · exact does.stocked (stocked _ (SeatMap.mem_of_get active))

theorem upheld_stocked : Upheld Stocked Stocked Stocked where
  performs := by
    intro action state after left queue generator drawn outcome stocked accepted executed pushed
    have given : Stocked { state with queue := left } := stocked
    have left := given.executes executed
    exact ⟨left, fun _ => left⟩
  skips stocked _ := ⟨stocked, fun _ => stocked⟩
  forfeits stocked _ := stocked
  starts stocked started := stocked.of_board (unturned_board.starts started)

end State

theorem build_stocked {setup : Setup} {state : State} (built : setup.build = .ok state) :
    state.Stocked := by
  obtain ⟨_, _, _, fresh, _⟩ := build_eq_ok built
  intro merchant member
  rw [fresh merchant member]
  exact UInt8.zero_le

theorem run_stocked {setup : Setup} {game : State} {generator : Generator}
    {commands : List (Command Action (Upkeep Request))}
    {session : Session State Action Rejection (Upkeep Request)} (admitted : setup.Admitted)
    (built : setup.build = .ok game)
    (ran : Session.run (upkeep service) commands (.start game generator) = .ok session) :
    session.play.Keeps fun state => state.InTurn setup ∧ state.Stocked := by
  have upheld := (State.upheld setup).and State.upheld_stocked
  have respects : Play.Respects (upkeep service)
      (fun state => state.InTurn setup ∧ state.Stocked)
      (fun state => state.InTurn setup ∧ state.Stocked) := by
    refine upkeep_respects upheld (fun _ both => ⟨both.1.kept, both.2⟩) ?_ ?_
    · intro state loaded both read
      exact Except.ok.inj (both.1.loads.symm.trans read) ▸ both
    · intro request play after events keeps served
      cases request
      cases served
      exact .inl ⟨⟨keeps.here.1.released, keeps.here.2⟩, keeps.back⟩
  exact Session.run_keeps upheld respects
    (.start ⟨build_inTurn admitted built, build_stocked built⟩) ran

end TurnObligations.Bazaar
