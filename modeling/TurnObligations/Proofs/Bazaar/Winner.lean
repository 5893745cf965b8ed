import TurnObligations.Proofs.Bazaar.Size

/-!
How a bazaar is won. The ruby that wins is the last thing done in its turn, so that the next turn opens
with nothing to take back; its move is rejected, and it may not be skipped.
-/

namespace TurnObligations.Bazaar

namespace State

variable {setup : Setup} {state after begun : State} {merchant next : Merchant} {action : Action}
  {left queue : Queue Action} {outcome : Outcome Action} {generator drawn : Generator}
  {winner : Seat} {goal : UInt8}

/-! ### Rubies -/

/-- Nobody has more rubies than it takes to win, and one merchant at most has as many. -/
structure Contested (goal : UInt8) (merchants : SeatMap Merchant) : Prop where
  bounded : ∀ merchant ∈ merchants.seats, merchant.rubies ≤ goal
  unique : ∀ {index other : Nat} {merchant rival : Merchant},
    merchants.seats[index]? = some merchant → merchants.seats[other]? = some rival →
    goal ≤ merchant.rubies → goal ≤ rival.rubies → index = other

theorem Contested.set {merchants : SeatMap Merchant} {seat : Seat}
    (short : ∀ merchant ∈ merchants.seats, merchant.rubies < goal) (reached : next.rubies ≤ goal) :
    Contested goal (merchants.set seat next) := by
  have elsewhere {index : Nat} {merchant : Merchant}
      (here : (merchants.set seat next).seats[index]? = some merchant)
      (wins : goal ≤ merchant.rubies) : index = seat.index := by
    by_cases same : seat.index = index
    · exact same.symm
    · have before : merchants.seats[index]? = some merchant := by
        simpa only [SeatMap.set, List.getElem?_set_ne same] using here
      exact absurd wins (UInt8.not_le.mpr (short merchant (List.mem_of_getElem? before)))
  refine ⟨?_, ?_⟩
  · intro merchant member
    rcases SeatMap.mem_set member with before | rfl
    · exact UInt8.le_of_lt (short merchant before)
    · exact reached
  · intro index other merchant rival here there wins rivals
    exact (elsewhere here wins).trans (elsewhere there rivals).symm

theorem Contested.of_short {merchants : SeatMap Merchant}
    (short : ∀ merchant ∈ merchants.seats, merchant.rubies < goal) : Contested goal merchants where
  bounded merchant member := UInt8.le_of_lt (short merchant member)
  unique here _ wins _ :=
    absurd wins (UInt8.not_le.mpr (short _ (List.mem_of_getElem? here)))

/-! ### Turns before and after -/

structure Running (setup : Setup) (state : State) : Prop where
  inTurn : state.InTurn setup
  undecided : state.winner? = none

structure Ended (setup : Setup) (state : State) : Prop where
  kept : state.Kept setup 2
  contested : Contested setup.rules.rubiesToWin state.merchants

structure Opening (setup : Setup) (state : State) : Prop where
  kept : state.Kept setup 0
  opened : ∃ merchant, state.Opened merchant
  contested : Contested setup.rules.rubiesToWin state.merchants

theorem Running.short (running : state.Running setup) :
    ∀ merchant ∈ state.merchants.seats, merchant.rubies < setup.rules.rubiesToWin := by
  rw [← running.inTurn.kept.rules]
  exact (winner?_eq_none_iff state).mp running.undecided

theorem Running.ended (running : state.Running setup) : state.Ended setup :=
  ⟨running.inTurn.kept, .of_short running.short⟩

theorem Opening.inTurn (opening : state.Opening setup) : state.InTurn setup := by
  obtain ⟨merchant, opened⟩ := opening.opened
  exact opened.inTurn opening.kept

theorem Opening.running (opening : state.Opening setup) (undecided : state.winner? = none) :
    state.Running setup := ⟨opening.inTurn, undecided⟩

theorem InTurn.order_of_buyRuby (inTurn : state.InTurn setup)
    (accepted : state.queue.perform .buyRuby = .ok left) : left.order = [] := by
  obtain ⟨phase, plays, inPhase⟩ := inTurn
  obtain ⟨later, leads, shaped⟩ := inPhase.shaped.performs (by decide) accepted
  rw [shaped.order, Phase.after_buyRuby leads]
  rfl

theorem Running.performs (running : state.Running setup)
    (accepted : state.queue.perform action = .ok left)
    (executed : execute action { state with queue := left } generator =
      .ok ⟨after, drawn, .ok outcome⟩)
    (pushed : Container.pushOutcome outcome after.queue = .ok queue) :
    Contested setup.rules.rubiesToWin after.merchants ∧
      (queue.order ≠ [] → after.winner? = none) := by
  have short := running.short
  have rules := running.inTurn.kept.rules
  cases execute_executes executed with
  | @done merchant next _ _ undecided active does =>
      have active : state.active = .ok merchant := active
      have held := short merchant (SeatMap.mem_of_get active)
      rcases does.rubies with ⟨_, same⟩ | ⟨rfl, more⟩
      · refine ⟨.set short (by rw [same]; exact UInt8.le_of_lt held), fun _ => ?_⟩
        refine (winner?_eq_none_iff _).mpr ?_
        intro other member
        show other.rubies < state.rules.rubiesToWin
        rw [rules]
        rcases SeatMap.mem_set member with before | rfl
        · exact short other before
        · rw [same]
          exact held
      · refine ⟨.set short ?_, fun remains => ?_⟩
        · rw [UInt8.le_iff_toNat_le, more]
          exact UInt8.lt_iff_toNat_lt.mp held
        · rw [Container.pushOutcome_eq, if_pos (does.quiet (by decide)).2] at pushed
          cases pushed
          exact absurd (running.inTurn.order_of_buyRuby accepted) remains

theorem Ended.opens (ended : state.Ended setup)
    (started : startNextTurn { state with queue := .empty } = .ok begun) : begun.Opening setup := by
  obtain ⟨kept, opened⟩ := Kept.opens ended.kept started
  obtain ⟨current, turn, _, _, same, _⟩ := startNextTurn_eq_ok rfl started
  refine ⟨kept, opened, ?_⟩
  rw [same]
  exact ended.contested

theorem upheld_running (setup : Setup) : Upheld (Running setup) (Ended setup) (Opening setup) where
  performs := by
    intro action state after left queue generator drawn outcome running accepted executed pushed
    obtain ⟨contested, undecided⟩ := running.performs accepted executed pushed
    obtain ⟨kept, stays⟩ := (upheld setup).performs running.inTurn accepted executed pushed
    exact ⟨⟨kept, contested⟩,
      fun unfinished => ⟨stays unfinished, undecided (remains_of_shouldEnd unfinished)⟩⟩
  skips := by
    intro state left running accepted
    obtain ⟨kept, stays⟩ := (upheld setup).skips running.inTurn accepted
    exact ⟨⟨kept, running.ended.contested⟩, fun unfinished => ⟨stays unfinished, running.undecided⟩⟩
  forfeits running accepted :=
    ⟨(upheld setup).forfeits running.inTurn accepted, running.ended.contested⟩
  starts ended started := Ended.opens ended started

/-! ### A game that is won -/

/-- Every call is answered the same way for ever and changes nothing. -/
structure Frozen (winner : Seat) (play : Play State) : Prop where
  performs : ∀ action, ∃ accepted, play.game.queue.canPerform action = .ok accepted ∧
    ∀ generator, play.perform action generator = .ok ⟨play, generator, [], .error
      (if accepted then .rejected (.gameOver winner) else .refused .nothingAvailable)⟩
  skips : ∀ generator, play.skip generator =
    .ok ⟨play, generator, [], .error (.refused .cannotSkip)⟩
  ends : ∀ generator, play.endTurn generator =
    .ok ⟨play, generator, [], .error (.refused .cannotSkip)⟩
  takesBack : play.takeBack = (play, .ok false)
  releases : service .releaseCurrent play = .ok (play, [])

theorem Opened.skip (opened : state.Opened merchant) :
    state.queue.skip = .error (.refused .cannotSkip) := by
  obtain ⟨plays, shaped, _⟩ := opened.shaped
  have focused : state.queue.current ≠ some (.anyTime 0) := by
    rw [opened.current]
    nofun
  rw [shaped.skip_order focused]
  rfl

theorem Opened.skipAll (opened : state.Opened merchant) :
    state.queue.skipAll = .error (.refused .cannotSkip) := by
  have pending : state.queue.isEmpty = false := by
    simp [Queue.isEmpty, Queue.length, opened.order]
  rw [Queue.skipAll, Container.skipUntilEmpty, pending, if_neg Bool.false_ne_true, opened.skip]
  rfl

theorem Opened.releaseCurrent (opened : state.Opened merchant) : state.releaseCurrent = state := by
  have released : state.queue.release = state.queue := by
    rw [Queue.release, ← opened.current]
  rw [State.releaseCurrent, released]

theorem execute_over (won : state.winner? = some winner) (action : Action) (generator : Generator) :
    state.execute action generator = .ok ⟨state, generator, .error (.gameOver winner)⟩ := by
  simp only [execute, won]
  rfl

theorem Opened.frozen {play : Play State} {taken : Snapshot} (opened : play.game.Opened merchant)
    (fresh : play.undo = .empty) (won : play.game.winner? = some winner)
    (snapped : TurnGame.snapshot play.game = .ok taken) : Frozen winner play where
  performs action := by
    obtain ⟨plays, shaped, _⟩ := opened.shaped
    have predicted := shaped.valid.decided.predicted
    refine ⟨_, predicted.canPerform action, fun generator => ?_⟩
    cases performed : Container.perform action play.game.queue with
    | ok consumed =>
        have won : winner? { play.game with queue := consumed } = some winner := won
        exact Play.perform_rejects snapped performed (execute_over won action generator)
    | error stop =>
        cases predicted.refusal action stop performed
        exact Play.perform_refused snapped performed
  skips generator := Play.skip_refused snapped opened.skip
  ends generator := Play.endTurn_refused opened.skipAll
  takesBack := by
    rw [Play.takeBack, fresh]
    rfl
  releases := by
    rw [service, opened.releaseCurrent]

theorem Frozen.inert {play : Play State} (frozen : Frozen winner play) : play.Inert service := by
  intro command generator
  cases command with
  | perform action =>
      obtain ⟨accepted, _, performed⟩ := frozen.performs action
      exact ⟨_, by rw [Play.call, performed]; rfl, rfl, rfl⟩
  | skip => exact ⟨_, by rw [Play.call, frozen.skips]; rfl, rfl, rfl⟩
  | endTurn => exact ⟨_, by rw [Play.call, frozen.ends]; rfl, rfl, rfl⟩
  | takeBack => exact ⟨_, by rw [Play.call, frozen.takesBack], rfl, rfl⟩
  | extra request =>
      cases request
      exact ⟨_, by rw [Play.call, frozen.releases]; rfl, rfl, rfl⟩

theorem Opened.stays {play : Play State} {command : Command Action Request}
    {report : Report State Action Rejection Reply} (opened : play.game.Opened merchant)
    (fresh : play.undo = .empty) (won : play.game.winner? = some winner)
    (called : play.call service command generator = .ok report) :
    report.play = play ∧ report.generator = generator := by
  cases snapped : TurnGame.snapshot play.game with
  | ok taken =>
      obtain ⟨same, called', stays⟩ := (opened.frozen fresh won snapped).inert command generator
      cases called.symm.trans called'
      exact stays
  | error fault =>
      -- what begins with a snapshot does not come back, and nothing else touches the game
      cases command with
      | perform action =>
          rw [Play.call, Play.perform, snapped] at called
          cases called
      | skip =>
          rw [Play.call, Play.skip, snapped] at called
          cases called
      | endTurn =>
          rw [Play.call, Play.endTurn_refused opened.skipAll] at called
          cases called
          exact ⟨rfl, rfl⟩
      | takeBack =>
          rw [Play.call, Play.takeBack, fresh] at called
          cases called
          exact ⟨rfl, rfl⟩
      | extra request =>
          cases request
          rw [Play.call, service, opened.releaseCurrent] at called
          cases called
          exact ⟨rfl, rfl⟩

/-! ### Whole games -/

section Games

variable {play : Play State}

theorem service_respects (setup : Setup) :
    Play.Respects service (Running setup) (Opening setup) := by
  intro request play after events keeps served
  cases request
  cases served
  exact .inl ⟨⟨keeps.here.inTurn.released, keeps.here.undecided⟩, keeps.back⟩

theorem contested_of_turned (turned : play.Turned (Running setup) (Opening setup)) :
    play.game.InTurn setup ∧ Contested setup.rules.rubiesToWin play.game.merchants := by
  rcases turned with keeps | opened
  · exact ⟨keeps.here.inTurn, keeps.here.ended.contested⟩
  · exact ⟨opened.here.inTurn, opened.here.contested⟩

theorem opened_of_turned (turned : play.Turned (Running setup) (Opening setup))
    (won : play.game.winner? = some winner) :
    (∃ merchant, play.game.Opened merchant) ∧ play.undo = .empty := by
  rcases turned with keeps | opened
  · cases keeps.here.undecided.symm.trans won
  · exact ⟨opened.here.opened, opened.fresh⟩

theorem frozen_of_turned
    (roomy : 8 * (setup.places.length + setup.bonusCards.length) ≤ Snapshot.sizeLimit)
    (turned : play.Turned (Running setup) (Opening setup))
    (won : play.game.winner? = some winner) : Frozen winner play := by
  obtain ⟨⟨merchant, opened⟩, fresh⟩ := opened_of_turned turned won
  obtain ⟨taken, snapped⟩ := (contested_of_turned turned).1.fits roomy
  exact opened.frozen fresh won snapped

section Runs

variable {commands : List (Command Action Request)}
  {session reached : Session State Action Rejection Request}

theorem run_turned (turned : session.play.Turned (Running setup) (Opening setup))
    (ran : session.run service commands = .ok reached) :
    reached.play.Turned (Running setup) (Opening setup) := by
  refine Session.run_preserves
    (fun session => session.play.Turned (Running setup) (Opening setup)) ?_ turned ran
  intro command session next turned stepped
  obtain ⟨report, called, rfl⟩ := Session.step_eq_ok.mp stepped
  cases won : session.play.game.winner? with
  | some winner =>
      obtain ⟨⟨merchant, opened⟩, fresh⟩ := opened_of_turned turned won
      rw [(opened.stays fresh won called).1]
      exact turned
  | none =>
      have keeps : session.play.Keeps (Running setup) := by
        rcases turned with keeps | opened
        · exact keeps
        · refine ⟨opened.here.running won, ?_⟩
          rw [opened.fresh]
          nofun
      exact Play.call_turned (upheld_running setup) (service_respects setup) keeps called

theorem run_stays (turned : session.play.Turned (Running setup) (Opening setup))
    (won : session.play.game.winner? = some winner)
    (ran : session.run service commands = .ok reached) :
    reached.play = session.play ∧ reached.generator = session.generator := by
  obtain ⟨⟨merchant, opened⟩, fresh⟩ := opened_of_turned turned won
  refine Session.run_preserves (fun later =>
    later.play = session.play ∧ later.generator = session.generator) ?_ ⟨rfl, rfl⟩ ran
  intro command later next still stepped
  obtain ⟨report, called, rfl⟩ := Session.step_eq_ok.mp stepped
  rw [still.1, still.2] at called
  exact opened.stays fresh won called

end Runs

end Games

end State

theorem build_turned {setup : Setup} {state : State} (admitted : setup.Admitted)
    (built : setup.build = .ok state) :
    (Play.start state).Turned (State.Running setup) (State.Opening setup) := by
  obtain ⟨_, _, _, fresh, opened⟩ := build_eq_ok built
  refine .inr ⟨⟨build_kept admitted built, opened, .of_short ?_⟩, rfl⟩
  intro merchant member
  rw [fresh merchant member]
  exact admitted.sound.distant

end TurnObligations.Bazaar
