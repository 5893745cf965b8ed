import TurnObligations.Proofs.Trail.Phase
import TurnObligations.Proofs.Turn.Total

/-!
Turns on the trail. Whatever is played, skipped or taken back, one obligation is pending, in one of
the phases of a turn, and the active herder holds the cards that it owes.
-/

namespace TurnObligations.Trail

/-! ### New games -/

/-- Settings made from the standard ones, one after the other. -/
inductive Setup.Admitted : Setup → Prop
  | standard : Admitted .standard
  | withPlayers {setup after : Setup} {players : Nat} (made : Admitted setup)
      (accepted : setup.withPlayers players = .ok after) : Admitted after
  | withDollars {setup : Setup} (dollars : UInt32) (made : Admitted setup) :
      Admitted (setup.withDollars dollars)
  | withHandLimit {setup after : Setup} {handLimit : Nat} (made : Admitted setup)
      (accepted : setup.withHandLimit handLimit = .ok after) : Admitted after
  | withTrail {setup after : Setup} {trail : List Location} (made : Admitted setup)
      (accepted : setup.withTrail trail = .ok after) : Admitted after

theorem Setup.Admitted.laid {setup : Setup} (admitted : setup.Admitted) : setup.trail ≠ [] := by
  induction admitted with
  | standard => nofun
  | withPlayers _ accepted ih =>
      obtain ⟨_, result⟩ := bind_unit_eq_ok.mp accepted
      cases result
      exact ih
  | withDollars _ _ ih => exact ih
  | withHandLimit _ accepted ih =>
      obtain ⟨_, result⟩ := bind_unit_eq_ok.mp accepted
      cases result
      exact ih
  | withTrail _ accepted _ =>
      obtain ⟨some, result⟩ := bind_unit_eq_ok.mp accepted
      cases result
      simpa using require_eq_ok_iff.mp some

theorem dealHerder_fresh (setup : Setup) (generator : Generator) :
    (setup.dealHerder generator).1.position = none ∧
      (setup.dealHerder generator).1.dollars = setup.dollars ∧
      (setup.dealHerder generator).1.cards.Perm startingDeck := by
  refine ⟨rfl, rfl, ?_⟩
  have shuffled := Generator.shuffle_perm startingDeck generator
  simp only [Setup.dealHerder, Herder.cards, List.append_nil]
  refine List.perm_append_comm.trans ?_
  rw [List.take_append_drop]
  exact shuffled

theorem dealHerders_fresh {setup : Setup} {seats : List Seat} {generator : Generator}
    {herder : Herder} (dealt : herder ∈ (setup.dealHerders seats generator).1) :
    herder.position = none ∧ herder.dollars = setup.dollars ∧ herder.cards.Perm startingDeck := by
  induction seats generalizing generator with
  | nil => cases dealt
  | cons seat rest ih =>
      rcases List.mem_cons.mp dealt with rfl | later
      · exact dealHerder_fresh setup generator
      · exact ih later

namespace State

variable {setup : Setup} {state after begun : State} {herder next : Herder} {action : Action}
  {left stack : Stack Action} {outcome : Outcome Action} {generator drawn : Generator}
  {phase : Phase} {spare : Nat}

theorem locationOf_current (active : state.active = .ok herder) :
    state.locationOf state.current = Track.locate state.trail herder.position := by
  rw [locationOf, show state.herders.get state.current = .ok herder from active]
  rfl

/-! ### What a turn keeps whatever is pending -/

/-- The cards of a herder are those dealt and the cattle bought, two in a turn at most. -/
structure Kept (setup : Setup) (spare : Nat) (state : State) : Prop where
  placed : state.Placed
  trail : state.trail = setup.trail
  few : state.herders.count ≤ 255
  cards : ∀ herder ∈ state.herders.seats, herder.cards.length ≤ 8 + 2 * state.turn.toNat + spare

namespace Kept

theorem mono {more : Nat} (kept : state.Kept setup spare) (within : spare ≤ more) :
    state.Kept setup more where
  placed := kept.placed
  trail := kept.trail
  few := kept.few
  cards herder member := Nat.le_trans (kept.cards herder member) (by omega)

theorem withStack (kept : state.Kept setup spare) (stack : Stack Action) :
    Kept setup spare { state with stack } :=
  ⟨kept.placed.withStack stack, kept.trail, kept.few, kept.cards⟩

theorem played (kept : state.Kept setup spare) (active : state.active = .ok herder)
    (does : Does state.trail left herder action next stack outcome) (pending : Stack Action) :
    Kept setup (spare + bought action) (state.played next pending) where
  placed := kept.placed.played active does pending
  trail := kept.trail
  few := by
    show (state.herders.set state.current next).count ≤ 255
    rw [SeatMap.count_set]
    exact kept.few
  cards other member := by
    show other.cards.length ≤ 8 + 2 * state.turn.toNat + (spare + bought action)
    rcases SeatMap.mem_set member with before | rfl
    · exact Nat.le_trans (kept.cards other before) (by omega)
    · have held := kept.cards herder (SeatMap.mem_of_get active)
      rw [does.cards]
      omega

end Kept

/-! ### Phases -/

structure Stands (setup : Setup) (phase : Phase) (state : State) : Prop where
  kept : state.Kept setup phase.herd
  located : ∀ location ∈ phase.location?, state.locationOf state.current = .ok (some location)
  holds : ∃ herder, state.active = .ok herder ∧ phase.owed ≤ herder.hand.length

structure InPhase (setup : Setup) (phase : Phase) (state : State) : Prop where
  stack : state.stack = Phase.pending phase
  stands : state.Stands setup phase

def InTurn (setup : Setup) (state : State) : Prop := ∃ phase, state.InPhase setup phase

theorem Stands.inTurn (stands : state.Stands setup phase) :
    InTurn setup { state with stack := Phase.pending phase } :=
  ⟨phase, rfl, stands.kept.withStack _, stands.located, stands.holds⟩

theorem Stands.moved (kept : state.Kept setup 0) (active : state.active = .ok herder)
    (does : Does state.trail left herder .move next stack outcome) :
    ∃ phase : Phase, stack.push outcome.followUps = Phase.pending phase ∧
      ∀ pending, Stands setup phase (state.played next pending) := by
  have keeps := kept.played active does
  cases does with
  | @move position location advanced =>
      refine ⟨Phase.arrival location, ?_, fun pending => ⟨?_, ?_, _, played_active active, ?_⟩⟩
      · rw [Phase.arrival_tree]
        simp [Stack.push, Stack.pushFront, Stack.empty, Phase.pending, Phase.tree_open]
      · cases location <;> exact keeps pending
      · have here := Track.locate_here (Track.advance_eq_ok advanced)
        intro arrived same
        rw [locationOf_current (played_active active)]
        cases location <;> cases same <;> exact here
      · cases location <;> exact Nat.zero_le _

theorem handAfter_mono {owed held : Nat} (within : owed ≤ held) :
    handAfter action owed ≤ handAfter action held := by
  cases action <;> simp only [handAfter] <;> omega

theorem Stands.worked {later : Phase} (stands : state.Stands setup phase)
    (leads : phase.after action = some (some later)) (still : action ≠ .move)
    (active : state.active = .ok herder)
    (does : Does state.trail left herder action next stack outcome) (pending : Stack Action) :
    Stands setup later (state.played next pending) := by
  obtain ⟨place, owed, herd⟩ := Phase.after_keeps leads
  obtain ⟨position, _, _⟩ := does.quiet still
  refine ⟨?_, ?_, next, played_active active, ?_⟩
  · rw [herd]
    exact stands.kept.played active does pending
  · intro location here
    have located := stands.located location (place ▸ here)
    rw [locationOf_current active] at located
    rw [locationOf_current (played_active active), position]
    exact located
  · obtain ⟨herder', active', holds⟩ := stands.holds
    cases active.symm.trans active'
    rw [does.hand]
    exact Nat.le_trans owed (handAfter_mono holds)

theorem Stands.skipped {later : Phase} (stands : state.Stands setup phase)
    (leads : phase.afterSkip = some (some later)) : state.Stands setup later := by
  obtain ⟨place, owed, herd⟩ := Phase.afterSkip_keeps leads
  obtain ⟨herder, active, _⟩ := stands.holds
  refine ⟨herd ▸ stands.kept, fun location here => stands.located location (place ▸ here),
    herder, active, ?_⟩
  rw [owed]
  exact Nat.zero_le _

/-- What the player of a turn faces: one obligation, which opens the turn or is under way where the
active herder stands, and enough cards in hand for what it still owes. -/
structure Faces (state : State) (tree : Obligation Action) (herder : Herder) : Prop where
  only : state.stack.obligations = [tree]
  timely : tree = .mandatory .move ∨ ∃ location start,
    state.locationOf state.current = .ok (some location) ∧ location.obligations = [start] ∧
      start.UnderWay tree
  active : state.active = .ok herder
  covered : ∀ node ∈ tree.children, ∀ count, node.owed = .ok count →
    count.toNat ≤ herder.hand.length

theorem InTurn.faces (inTurn : state.InTurn setup) : ∃ tree herder, state.Faces tree herder := by
  obtain ⟨phase, inPhase⟩ := inTurn
  obtain ⟨herder, active, holds⟩ := inPhase.stands.holds
  refine ⟨phase.tree, herder, ?_, ?_, active, ?_⟩
  · rw [inPhase.stack]
    rfl
  · cases place : phase.location? with
    | none =>
        cases phase <;> cases place
        exact .inl rfl
    | some location =>
        exact .inr ⟨location, _, inPhase.stands.located location place,
          Phase.arrival_tree location, Phase.tree_underWay place⟩
  · intro node part count asked
    exact Nat.le_trans (Phase.owed_tree part asked) holds

/-! ### Every call keeps to the phases -/

theorem InPhase.performs (inPhase : state.InPhase setup phase)
    (accepted : state.stack.perform action = .ok left)
    (executed : execute action { state with stack := left } generator =
      .ok ⟨after, drawn, .ok outcome⟩)
    (pushed : Container.pushOutcome outcome after.stack = .ok stack) :
    Kept setup 2 { after with stack } ∧
      (stack.obligations ≠ [] → InTurn setup { after with stack }) := by
  obtain ⟨herder, next, unfinished, active, does, rfl⟩ := execute_does executed
  obtain ⟨standing, stands⟩ := inPhase
  have active : state.active = .ok herder := active
  rw [Stack.pushOutcome_eq] at pushed
  rw [standing] at accepted
  by_cases moves : action = .move
  · subst moves
    have kept := stands.kept
    rw [Phase.perform_move accepted] at kept
    obtain ⟨phase, arrives, stands⟩ := Stands.moved kept active does
    cases pushed
    exact ⟨(kept.played active does _).mono (by decide), fun _ => ⟨phase, arrives, stands _⟩⟩
  · rw [Phase.perform_pending moves] at accepted
    split at accepted
    · next later leads =>
        cases accepted
        obtain ⟨_, rfl, quiet⟩ := does.quiet moves
        have same : stack = Phase.pending later := by
          rw [quiet] at pushed
          exact (Except.ok.inj pushed).symm
        subst same
        refine ⟨(stands.kept.played active does _).mono (Phase.herd_after leads), ?_⟩
        intro remains
        cases later with
        | none => exact absurd rfl remains
        | some later => exact ⟨later, rfl, stands.worked leads moves active does _⟩
    · cases accepted

theorem InPhase.skips (inPhase : state.InPhase setup phase) (accepted : state.stack.skip = .ok left) :
    left.obligations ≠ [] → InTurn setup { state with stack := left } := by
  obtain ⟨standing, stands⟩ := inPhase
  rw [standing, Phase.skip_pending] at accepted
  split at accepted
  · next later leads =>
      cases accepted
      intro remains
      cases later with
      | none => exact absurd rfl remains
      | some later => exact (stands.skipped leads).inTurn
  · cases accepted

theorem Kept.opened (kept : state.Kept setup 2)
    (started : startNextTurn { state with stack := .empty } = .ok begun) : begun.InTurn setup := by
  have placed := (kept.placed.withStack .empty).opened started
  obtain ⟨current, turn, seated, counted, rfl⟩ := startNextTurn_eq_ok started
  obtain ⟨herder, active⟩ := placed.active
  refine ⟨.opening, rfl, ⟨placed, kept.trail, kept.few, ?_⟩, nofun, herder, active, Nat.zero_le _⟩
  intro herder member
  have counted : turn.toNat = state.turn.toNat + 1 := counted
  have held := kept.cards herder member
  show herder.cards.length ≤ 8 + 2 * turn.toNat + 0
  omega

theorem shouldEnd_iff (state : State) :
    TurnGame.shouldEnd state = true ↔ state.stack.obligations = [] := by
  show (state.stack.obligations.length == 0 && !false) = true ↔ _
  simp

theorem remains_of_shouldEnd (unfinished : TurnGame.shouldEnd state = false) :
    state.stack.obligations ≠ [] := by
  intro none
  rw [(shouldEnd_iff state).mpr none] at unfinished
  cases unfinished

theorem upheld (setup : Setup) :
    Upheld (InTurn setup) (Kept setup 2) (InTurn setup) where
  performs := by
    rintro action state after left stack generator drawn outcome ⟨phase, inPhase⟩ accepted executed
      pushed
    obtain ⟨kept, stays⟩ := inPhase.performs accepted executed pushed
    exact ⟨kept, fun unfinished => stays (remains_of_shouldEnd unfinished)⟩
  skips := by
    rintro state left ⟨phase, inPhase⟩ accepted
    have kept := inPhase.stands.kept.withStack left
    refine ⟨kept.mono (Nat.le_succ_of_le phase.herd_le), fun unfinished => ?_⟩
    exact inPhase.skips accepted (remains_of_shouldEnd unfinished)
  forfeits := by
    rintro state left ⟨phase, inPhase⟩ _
    exact (inPhase.stands.kept.withStack left).mono (Nat.le_succ_of_le phase.herd_le)
  starts := fun kept started => Kept.opened kept started

/-! ### Nobody is ever stuck -/

theorem Placed.startable (placed : state.Placed) (counts : state.turn.toNat + 1 < UInt32.size) :
    Startable state := (placed.withStack .empty).startNextTurn_returns counts

theorem canGoOn_of_allowed {play : Play State} {taken : Snapshot}
    (inPhase : play.game.InPhase setup phase) (counts : play.game.turn.toNat + 1 < UInt32.size)
    (snapped : TurnGame.snapshot play.game = .ok taken)
    (accepted : play.game.stack.perform action = .ok left)
    (executed : execute action { play.game with stack := left } generator =
      .ok ⟨after, drawn, .ok outcome⟩) : play.CanGoOn generator := by
  have pushed := Stack.pushOutcome_eq outcome after.stack
  obtain ⟨kept, _⟩ := inPhase.performs accepted executed pushed
  obtain ⟨herder, next, unfinished, _, _, rfl⟩ := execute_does executed
  have predicted : Container.Predicted play.game.stack := by
    rw [inPhase.stack]
    exact Phase.pending_predicted _
  exact Play.canGoOn_of_perform snapped predicted accepted executed pushed
    (kept.placed.startable counts)

theorem InTurn.canGoOn {play : Play State} {taken : Snapshot} (generator : Generator)
    (inTurn : play.game.InTurn setup) (few : setup.trail.length < UInt64.size)
    (counts : play.game.turn.toNat + 1 < UInt32.size)
    (snapped : TurnGame.snapshot play.game = .ok taken) : play.CanGoOn generator := by
  obtain ⟨phase, inPhase⟩ := inTurn
  have standing := inPhase.stack
  have kept := inPhase.stands.kept
  have placed := kept.placed
  rcases phase.exits with ⟨next, leads⟩ | rfl | rfl | ⟨crossing, owes, next, leads⟩
  · have accepted : play.game.stack.skip = .ok (Phase.pending next) := by
      rw [standing, Phase.skip_pending, leads]
    exact Play.canGoOn_of_skip snapped accepted ((placed.withStack _).startable counts)
  · have accepted : play.game.stack.perform .move = .ok (Phase.pending none) := by
      rw [standing]
      rfl
    obtain ⟨after, outcome, moved⟩ := moveOn_allowed generator
      (placed.withStack (Phase.pending none)) (kept.trail ▸ few)
    exact canGoOn_of_allowed inPhase counts snapped accepted moved
  · have accepted : play.game.stack.perform .payToll = .ok (Phase.pending none) := by
      rw [standing]
      rfl
    obtain ⟨after, outcome, paid⟩ := payToll_allowed generator
      (placed.withStack (Phase.pending none))
    exact canGoOn_of_allowed inPhase counts snapped accepted paid
  · have accepted : play.game.stack.perform .discardCard = .ok (Phase.pending next) := by
      rw [standing, Phase.perform_pending (by decide), leads]
    obtain ⟨herder, active, holds⟩ := inPhase.stands.holds
    have inHand : herder.hand ≠ [] := List.length_pos_iff.mp (Nat.lt_of_lt_of_le owes holds)
    have located := inPhase.stands.located .crossing crossing
    obtain ⟨after, outcome, discarded⟩ := discardCard_allowed
      { play.game with stack := Phase.pending next } generator located (by decide) active inHand
    exact canGoOn_of_allowed inPhase counts snapped accepted discarded

end State

/-! ### From the start -/

theorem build_eq_ok {setup : Setup} {state : State} {generator drawn : Generator}
    (built : setup.build generator = .ok (state, drawn)) :
    state.trail = setup.trail ∧ state.turn = 0 ∧ state.stack = .ofList [.mandatory .move] ∧
      ∀ herder ∈ state.herders.seats, herder.position = none ∧ herder.dollars = setup.dollars ∧
        herder.cards.Perm startingDeck := by
  obtain ⟨seats, _, result⟩ := bind_eq_ok.mp built
  cases result
  exact ⟨rfl, rfl, rfl, fun herder dealt => dealHerders_fresh dealt⟩

theorem build_inTurn {setup : Setup} {state : State} {generator drawn : Generator}
    (admitted : setup.Admitted) (built : setup.build generator = .ok (state, drawn)) :
    state.InTurn setup := by
  obtain ⟨⟨occupied, few⟩, round⟩ := build_round built
  obtain ⟨trail, turn, stack, fresh⟩ := build_eq_ok built
  have count : state.herders.count = setup.players := congrArg Round.players round
  have first : state.current = ⟨0⟩ := congrArg Round.seat round
  have placed : state.Placed := by
    refine ⟨?_, trail ▸ admitted.laid, ?_⟩
    · rw [first, count]
      exact occupied
    · intro herder dealt
      rw [(fresh herder dealt).1]
      rfl
  obtain ⟨herder, active⟩ := placed.active
  refine ⟨.opening, stack, ⟨placed, trail, by omega, ?_⟩, nofun, herder, active, Nat.zero_le _⟩
  intro herder dealt
  rw [(fresh herder dealt).2.2.length_eq]
  exact Nat.le_add_right 8 _

end TurnObligations.Trail
