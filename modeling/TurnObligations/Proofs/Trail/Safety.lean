import TurnObligations.Proofs.Trail.Size

/-!
Why no call breaks down on the trail: what a save must satisfy to be accepted is all that play relies
on, and every call keeps it.
-/

namespace TurnObligations.Trail

theorem Location.obligations_valid (location : Location) :
    ∀ tree ∈ location.obligations, tree.Valid := by
  intro tree member
  rw [Phase.arrival_tree] at member
  exact List.mem_singleton.mp member ▸ Phase.tree_valid _

namespace State

open GatedGame (Intact)

variable {setup : Setup} {state after begun : State} {herder next : Herder} {action : Action}
  {left stack : Stack Action} {outcome : Outcome Action} {generator drawn : Generator}
  {taken : Snapshot}

instance : GatedGame State where
  Valid state := state.stack.Valid
  Placed := Placed
  validate_eq_ok_iff := validate_eq_ok_iff

def New (state : State) : Prop :=
  ∃ (setup : Setup) (generator drawn : Generator), setup.Admitted ∧
    setup.build generator = .ok (state, drawn)

theorem New.validate (new : state.New) : state.validate = .ok () := by
  obtain ⟨setup, generator, drawn, admitted, built⟩ := new
  exact (build_inTurn admitted built).validate

/-! ### Every call keeps it -/

theorem Does.valid (does : Does state.trail left herder action next stack outcome)
    (leftValid : left.Valid) : stack.Valid ∧ ∀ tree ∈ outcome.followUps, tree.Valid := by
  cases does with
  | @move position location advanced => exact ⟨nofun, location.obligations_valid⟩
  | _ => exact ⟨leftValid, nofun⟩

theorem performs_intact (intact : Intact state) (accepted : state.stack.perform action = .ok left)
    (executed : execute action { state with stack := left } generator =
      .ok ⟨after, drawn, .ok outcome⟩)
    (pushed : Container.pushOutcome outcome after.stack = .ok stack) :
    Intact { after with stack } := by
  obtain ⟨herder, next, unfinished, active, does, rfl⟩ := execute_does executed
  have active : state.active = .ok herder := active
  have does : Does state.trail left herder action next unfinished outcome := does
  obtain ⟨valid, followUps⟩ := does.valid (Stack.perform_valid intact.valid accepted)
  rw [Stack.pushOutcome_eq] at pushed
  cases pushed
  exact ⟨Stack.push_valid valid followUps, Placed.played intact.placed active does _⟩

theorem intact_of_started (placed : state.Placed)
    (started : startNextTurn { state with stack := .empty } = .ok begun) : Intact begun := by
  have opened := (placed.withStack .empty).opened started
  obtain ⟨current, turn, _, _, rfl⟩ := startNextTurn_eq_ok started
  exact ⟨Phase.pending_valid (some .opening), opened⟩

theorem upheld_intact : Upheld Intact Placed Intact :=
  GatedGame.upheld (fun left _ placed => placed.withStack left) performs_intact
    (fun intact accepted => (Stack.skip_shrinks intact.valid accepted).1) intact_of_started

/-! ### No call breaks down -/

theorem length_trail_lt (snapped : TurnGame.snapshot state = .ok taken) :
    state.trail.length < UInt64.size := by
  have items := Snapshot.length_le_write_list rfl state.trail
  have small := Snapshot.length_write_of_encode snapped
  rw [write_state, List.length_append] at small
  exact Snapshot.lt_word_of_small (by omega)

theorem sturdy_of_intact (intact : Intact state)
    (poor : ∀ herder ∈ state.herders.seats, herder.dollars.toNat + 255 < UInt32.size)
    (counts : state.turn.toNat + 1 < UInt32.size) : Play.Sturdy state where
  performs := (Stack.Valid.unbroken intact.valid).perform
  executes generator snapped _ := by
    have few := length_trail_lt snapped
    exact execute_returns _ generator (Placed.withStack intact.placed _) few poor
  pushes := by
    intro taken action consumed generator drawn after outcome snapped accepted executed
    have pushed := Stack.pushOutcome_eq outcome after.stack
    have placed := (performs_intact intact accepted executed pushed).placed
    obtain ⟨herder, next, unfinished, _, _, rfl⟩ := execute_does executed
    exact ⟨_, pushed, Placed.startable placed counts⟩
  skips := (Stack.Valid.unbroken intact.valid).skip
  skipsAll := (Stack.Valid.unbroken intact.valid).skipAll
  starts left := (Placed.withStack intact.placed left).startable counts

end State

end TurnObligations.Trail
