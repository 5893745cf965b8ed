import TurnObligations.Proofs.Bazaar.Moves

/-!
Where a turn in the bazaar can stand: how far the order has come, how many plays the pool has left,
and which of the two is in focus.
-/

namespace TurnObligations.Bazaar

open Obligation (freshRepeat mandatory)

inductive Phase where
  | opening
  | warehouse
  | market
  | soldOne
  | soldTwo
  | caravansary
  | drewOne
  | returning
  | jeweler
deriving DecidableEq, Repr

namespace Phase

def front : Phase → Obligation Action
  | opening => mandatory .move
  | warehouse => mandatory .takeGoods
  | market => freshRepeat 0 3 (mandatory .sellGoods)
  | soldOne => .repeated 0 3 (mandatory .sellGoods) none 1
  | soldTwo => .repeated 0 3 (mandatory .sellGoods) none 2
  | caravansary => freshRepeat 2 2 (mandatory .drawBonusCard)
  | drewOne => .repeated 2 2 (mandatory .drawBonusCard) none 1
  | returning => mandatory .discardBonusCard
  | jeweler => .optional .buyRuby

def behind : Phase → List (Obligation Action)
  | caravansary | drewOne => [mandatory .discardBonusCard]
  | _ => []

def order : Option Phase → List (Obligation Action)
  | some phase => phase.front :: phase.behind
  | none => []

/-- How many cards have been drawn this turn, of which one is to be given back. -/
def drawn : Phase → Nat
  | drewOne => 1
  | returning => 2
  | _ => 0

def arrival : Place → Phase
  | .warehouse => warehouse
  | .market => market
  | .caravansary => caravansary
  | .jeweler => jeweler

/-- Where an action leads that is not a play: to another phase, or to an empty order. -/
def after : Phase → Action → Option (Option Phase)
  | opening, .move => some none
  | warehouse, .takeGoods => some none
  | market, .sellGoods => some soldOne
  | soldOne, .sellGoods => some soldTwo
  | soldTwo, .sellGoods => some none
  | caravansary, .drawBonusCard => some drewOne
  | drewOne, .drawBonusCard => some returning
  | returning, .discardBonusCard => some none
  | jeweler, .buyRuby => some none
  | _, _ => none

def current : Option Phase → Option QueueSlot
  | some soldOne | some soldTwo | some drewOne => some (.queue 0)
  | _ => none

def optional : Phase → Bool
  | market | soldOne | soldTwo | jeweler => true
  | _ => false

variable {phase : Phase} {action : Action}

theorem arrival_order (place : Place) : place.obligations = order (arrival place) := by
  cases place <;> rfl

theorem order_valid (phase : Option Phase) : ∀ tree ∈ order phase, tree.Valid := by
  have valid : Obligation.validateAll (order phase) = .ok () := by
    cases phase with
    | none => rfl
    | some phase => cases phase <;> rfl
  simpa only [Obligation.validate_eq_ok_iff] using Obligation.validateAll_eq_ok_iff.mp valid

theorem front_open (phase : Phase) : phase.front.isFinal = false := by cases phase <;> rfl

theorem after_keeps {later : Phase} (leads : phase.after action = some (some later)) :
    later.drawn = phase.drawn + State.gained action ∧
      ∀ held, State.cardsAfter action held = held + State.gained action := by
  cases phase <;> cases action <;> cases leads <;> exact ⟨rfl, fun _ => rfl⟩

theorem drawn_after {later : Option Phase} (leads : phase.after action = some later) :
    phase.drawn + State.gained action ≤ 2 := by
  cases phase <;> cases action <;> cases leads <;> decide

theorem after_buyRuby {later : Option Phase} (leads : phase.after .buyRuby = some later) :
    later = none := by
  cases phase <;> cases leads
  rfl

theorem drawn_le (phase : Phase) : phase.drawn ≤ 2 := by cases phase <;> decide

theorem exits (phase : Phase) :
    phase.optional = true ∨ ∃ action later, phase.after action = some later ∧
      (action = .move ∨ action = .takeGoods ∨ action = .drawBonusCard ∨
        action = .discardBonusCard ∧ 0 < phase.drawn) := by
  cases phase with
  | opening => exact .inr ⟨.move, none, rfl, .inl rfl⟩
  | warehouse => exact .inr ⟨.takeGoods, none, rfl, .inr (.inl rfl)⟩
  | caravansary => exact .inr ⟨.drawBonusCard, some .drewOne, rfl, .inr (.inr (.inl rfl))⟩
  | drewOne => exact .inr ⟨.drawBonusCard, some .returning, rfl, .inr (.inr (.inl rfl))⟩
  | returning =>
      exact .inr ⟨.discardBonusCard, none, rfl, .inr (.inr (.inr ⟨rfl, by decide⟩))⟩
  | _ => exact .inl rfl

theorem drawn_of_discards {later : Option Phase}
    (leads : phase.after .discardBonusCard = some later) : 0 < phase.drawn := by
  cases phase <;> cases leads
  decide

end Phase

/-- The plays that the cards held at the opening of the turn still allow. -/
inductive Pool : List (Obligation Action) → Nat → Prop
  | lapsed : Pool [] 0
  | playing {held count : UInt32} (left : count < held) :
      Pool [.repeated 0 held (mandatory .playBonusCard) none count] (held.toNat - count.toNat)

namespace Pool

variable {pool : List (Obligation Action)} {plays : Nat} {action : Action}

theorem refuses (pooled : Pool pool plays) (other : action ≠ .playBonusCard) :
    Obligation.firstAccepting action pool = .ok none := by
  cases pooled with
  | lapsed => rfl
  | playing left =>
      simp [Obligation.firstAccepting, Obligation.canPerform, mandatory, left, other, bind,
        Except.bind, pure, Except.pure]

theorem valid (pooled : Pool pool plays) : ∀ tree ∈ pool, tree.Valid := by
  cases pooled with
  | lapsed => simp
  | playing left =>
      have within := UInt32.lt_iff_toNat_lt.mp left
      simp only [List.mem_singleton, forall_eq, Obligation.valid_repeated, mandatory,
        Obligation.valid_single]
      exact ⟨⟨Nat.zero_le _, by omega⟩, trivial, by simp⟩

theorem length_le (pooled : Pool pool plays) : pool.length ≤ 1 := by
  cases pooled with
  | lapsed => exact Nat.zero_le 1
  | playing => exact Nat.le_refl 1

end Pool

/-- The order is in a phase and the pool allows so many plays; what is in progress, if anything, is up
next in one of the two. -/
structure Shaped (queue : Queue Action) (phase : Option Phase) (plays : Nat) : Prop where
  order : queue.order = Phase.order phase
  pool : Pool queue.anyTime plays
  current : queue.current = none ∨ (queue.current = some (.queue 0) ∧ phase ≠ none) ∨
    (queue.current = some (.anyTime 0) ∧ 0 < plays)

namespace Shaped

variable {queue next : Queue Action} {phase : Phase} {later : Option Phase} {plays : Nat}
  {action : Action}

theorem valid (shaped : Shaped queue later plays) : queue.Valid := by
  refine ⟨?_, ?_⟩
  · intro tree member
    rcases List.mem_append.mp member with pooled | ordered
    · exact shaped.pool.valid tree pooled
    · exact Phase.order_valid later tree (shaped.order ▸ ordered)
  · intro slot here
    rcases shaped.current with none | ⟨current, more⟩ | ⟨current, some⟩
    · cases none.symm.trans here
    · cases current.symm.trans here
      obtain ⟨phase, rfl⟩ := Option.ne_none_iff_exists'.mp more
      exact ⟨phase.front, by simp [Queue.get?, shaped.order, Phase.order], phase.front_open⟩
    · cases current.symm.trans here
      have pool := shaped.pool
      cases pooled : queue.anyTime with
      | nil =>
          rw [pooled] at pool
          cases pool
          cases some
      | cons tree rest =>
          rw [pooled] at pool
          cases pool with
          | playing left =>
              refine ⟨_, by rw [Queue.get?, pooled]; rfl, ?_⟩
              simpa [Obligation.isFinal] using UInt32.ne_of_lt left

theorem length_le (shaped : Shaped queue later plays) : queue.length ≤ 3 := by
  have pool := shaped.pool.length_le
  have order : queue.order.length ≤ 2 := by
    rw [shaped.order]
    cases later with
    | none => decide
    | some phase => cases phase <;> decide
  simp only [Queue.length]
  omega

/-! ### Moves on the order -/

theorem perform_eq (shaped : Shaped queue (some phase) plays)
    (focused : queue.current ≠ some (.anyTime 0))
    (passes : queue.current = none →
      Obligation.firstAccepting action queue.anyTime = .ok none) :
    queue.perform action =
      match phase.after action with
      | some later => .ok ⟨queue.anyTime, Phase.order later, Phase.current later, queue.room⟩
      | none => .error (.refused .nothingAvailable) := by
  obtain ⟨anyTime, order, current, room⟩ := queue
  obtain ⟨rfl, pool, slot⟩ := shaped
  have found : Queue.target action ⟨anyTime, Phase.order (some phase), current, room⟩ =
      .ok (some (.queue 0)) := by
    rcases slot with rfl | ⟨rfl, _⟩ | ⟨rfl, _⟩
    · have passes := passes rfl
      dsimp only at passes
      simp only [Queue.target, Queue.locate, passes]
      rfl
    · rfl
    · exact absurd rfl focused
  rw [Queue.perform_at found rfl]
  cases phase <;> cases action <;> rfl

theorem focused_of_perform (shaped : Shaped queue (some phase) plays)
    (other : action ≠ .playBonusCard) (performed : queue.perform action = .ok next) :
    queue.current ≠ some (.anyTime 0) := by
  intro current
  obtain ⟨anyTime, order, slot, room⟩ := queue
  obtain ⟨rfl, pool, _⟩ := shaped
  dsimp only at current pool
  subst current
  cases pool with
  | lapsed => cases performed
  | playing left =>
      rw [Queue.perform_at rfl rfl] at performed
      simp [Obligation.canPerform, mandatory, other, left, lift_ok, ok_bind] at performed

theorem performs (shaped : Shaped queue (some phase) plays) (other : action ≠ .playBonusCard)
    (performed : queue.perform action = .ok next) :
    ∃ later, phase.after action = some later ∧ Shaped next later plays := by
  rw [shaped.perform_eq (shaped.focused_of_perform other performed)
    fun _ => shaped.pool.refuses other] at performed
  split at performed
  · next later leads =>
      cases performed
      refine ⟨later, leads, rfl, shaped.pool, ?_⟩
      cases later with
      | none => exact .inl rfl
      | some later =>
          cases later with
          | soldOne | soldTwo | drewOne => exact .inr (.inl ⟨rfl, nofun⟩)
          | _ => exact .inl rfl
  · cases performed

/-! ### Plays from the pool -/

theorem perform_play {held count : UInt32} (left : count < held) :
    ∃ counted : UInt32, counted.toNat = count.toNat + 1 ∧
      (Obligation.repeated 0 held (mandatory Action.playBonusCard) none count).perform
        .playBonusCard = .ok (.repeated 0 held (mandatory .playBonusCard) none counted) := by
  obtain ⟨counted, added, counts⟩ := Obligation.add32_one left
  refine ⟨counted, counts, ?_⟩
  have started : (mandatory Action.playBonusCard).perform .playBonusCard =
      .ok (.single .playBonusCard true true) := rfl
  rw [Obligation.perform, if_neg (UInt32.not_le.mpr left), started, ok_bind]
  simp only [Obligation.isFinal, if_true, added, lift_ok, ok_bind]
  rfl

theorem plays_one (shaped : Shaped queue (some phase) plays)
    (performed : queue.perform .playBonusCard = .ok next) :
    ∃ left, plays = left + 1 ∧ Shaped next (some phase) left := by
  have refused (focused : queue.current ≠ some (.anyTime 0))
      (passes : queue.current = none →
        Obligation.firstAccepting .playBonusCard queue.anyTime = .ok none) : False := by
    rw [shaped.perform_eq focused passes] at performed
    cases phase <;> cases performed
  obtain ⟨anyTime, order, current, room⟩ := queue
  obtain ⟨rfl, pool, slot⟩ := shaped
  dsimp only at pool slot refused
  cases pool with
  | lapsed =>
      refine (refused ?_ fun _ => rfl).elim
      rcases slot with rfl | ⟨rfl, _⟩ | ⟨_, some⟩
      · nofun
      · nofun
      · cases some
  | @playing held count left =>
      have unfocused : current = none ∨ current = some (.anyTime 0) := by
        rcases slot with rfl | ⟨rfl, _⟩ | ⟨rfl, _⟩
        · exact .inl rfl
        · exact (refused nofun nofun).elim
        · exact .inr rfl
      have accepts : (Obligation.repeated 0 held (mandatory Action.playBonusCard) none
          count).canPerform .playBonusCard = .ok true := by
        simp [Obligation.canPerform, mandatory, left]
      have found : Queue.target .playBonusCard ⟨[.repeated 0 held (mandatory .playBonusCard) none
          count], Phase.order (some phase), current, room⟩ = .ok (some (.anyTime 0)) := by
        rcases unfocused with rfl | rfl
        · simp only [Queue.target, Queue.locate, Obligation.firstAccepting, accepts, ok_bind]
          rfl
        · rfl
      obtain ⟨counted, counts, took⟩ := perform_play left
      have within := UInt32.lt_iff_toNat_lt.mp left
      rw [Queue.perform_at found rfl, accepts, lift_ok, ok_bind, if_pos rfl, took, ok_bind]
        at performed
      cases performed
      refine ⟨held.toNat - counted.toNat, by omega, ?_⟩
      by_cases last : counted = held
      · have final : (Obligation.repeated 0 held (mandatory Action.playBonusCard) none
            counted).isFinal = true := by simp [Obligation.isFinal, last]
        simp only [Queue.settle, final, if_true]
        refine ⟨rfl, ?_, .inl rfl⟩
        rw [last, Nat.sub_self]
        exact .lapsed
      · have unresolved : (Obligation.repeated 0 held (mandatory Action.playBonusCard) none
            counted).isFinal = false := by simp [Obligation.isFinal, last]
        have more : counted.toNat ≠ held.toNat := fun same => last (UInt32.toNat_inj.mp same)
        simp only [Queue.settle, unresolved, Bool.false_eq_true, if_false]
        refine ⟨rfl, .playing (UInt32.lt_iff_toNat_lt.mpr ?_), .inr (.inr ⟨rfl, ?_⟩)⟩
        · omega
        · omega

/-! ### Skips -/

theorem skip_order (shaped : Shaped queue (some phase) plays)
    (focused : queue.current ≠ some (.anyTime 0)) :
    queue.skip = if phase.optional then .ok .empty else .error (.refused .cannotSkip) := by
  obtain ⟨anyTime, order, current, room⟩ := queue
  obtain ⟨rfl, pool, slot⟩ := shaped
  rcases slot with rfl | ⟨rfl, _⟩ | ⟨rfl, _⟩
  · cases phase <;> rfl
  · cases phase <;> rfl
  · exact absurd rfl focused

theorem skip_pool (shaped : Shaped queue (some phase) plays)
    (current : queue.current = some (.anyTime 0)) :
    ∃ next, queue.skip = .ok next ∧ Shaped next (some phase) 0 := by
  obtain ⟨anyTime, order, slot, room⟩ := queue
  obtain ⟨rfl, pool, inFocus⟩ := shaped
  dsimp only at current pool inFocus
  subst current
  cases pool with
  | lapsed =>
      rcases inFocus with none | ⟨same, _⟩ | ⟨_, some⟩
      · cases none
      · cases same
      · cases some
  | @playing held count left =>
      refine ⟨⟨[], Phase.order phase, none, Nat.zero_le _⟩, ?_, rfl, .lapsed, .inl rfl⟩
      have permitted : (Obligation.repeated 0 held (mandatory Action.playBonusCard) none
          count).skip = .ok (.repeated 0 count (mandatory .playBonusCard) none count) :=
        Obligation.skip_eq_ok_iff.mpr ⟨by simp [Obligation.checkSkip, Obligation.checkSkipCurrent], rfl⟩
      have final : (Obligation.repeated 0 count (mandatory Action.playBonusCard) none
          count).isFinal = true := by simp [Obligation.isFinal]
      have here : Queue.get? ⟨[.repeated 0 held (mandatory Action.playBonusCard) none count],
          Phase.order phase, some (.anyTime 0), room⟩ (.anyTime 0) =
          some (.repeated 0 held (mandatory .playBonusCard) none count) := rfl
      simp only [Queue.skip, Queue.skipTarget, Option.some_or, here, permitted, ok_bind,
        Queue.settle, final, if_true]
      rfl

theorem skips (shaped : Shaped queue (some phase) plays) (skipped : queue.skip = .ok next) :
    next = .empty ∨ Shaped next (some phase) 0 := by
  by_cases current : queue.current = some (.anyTime 0)
  · obtain ⟨next', skipped', shaped⟩ := shaped.skip_pool current
    exact .inr (Except.ok.inj (skipped'.symm.trans skipped) ▸ shaped)
  · rw [shaped.skip_order current] at skipped
    split at skipped
    · exact .inl (Except.ok.inj skipped).symm
    · cases skipped

theorem release (shaped : Shaped queue later plays) : Shaped queue.release later plays :=
  ⟨shaped.order, shaped.pool, .inl rfl⟩

end Shaped

end TurnObligations.Bazaar
