import TurnObligations.Proofs.Bazaar.Size

/-!
Why no call breaks down in the bazaar: what a save must satisfy to be accepted is all that play relies
on, and every call keeps it.
-/

namespace TurnObligations.Bazaar

open Snapshot (length_le_write_list)

theorem Place.obligations_valid (place : Place) : ∀ tree ∈ place.obligations, tree.Valid :=
  Phase.arrival_order place ▸ Phase.order_valid _

namespace State

open GatedGame (Intact)

variable {setup : Setup} {state after begun : State} {merchant next : Merchant} {action : Action}
  {left queue : Queue Action} {outcome : Outcome Action} {generator drawn : Generator}
  {taken : Snapshot}

instance : GatedGame State where
  Valid state := state.queue.Valid
  Placed := Placed
  validate_eq_ok_iff := validate_eq_ok_iff

def New (state : State) : Prop := ∃ setup : Setup, setup.Admitted ∧ setup.build = .ok state

theorem New.validate (new : state.New) : state.validate = .ok () := by
  obtain ⟨setup, admitted, built⟩ := new
  exact (build_inTurn admitted built).validate

/-! ### Every call keeps it -/

theorem Does.followUps_valid
    (does : Does state.rules state.places generator merchant action next outcome) :
    ∀ tree ∈ outcome.followUps, tree.Valid := by
  cases does with
  | @move index place advanced => exact place.obligations_valid
  | _ => nofun

theorem performs_intact (intact : Intact state) (accepted : state.queue.perform action = .ok left)
    (executed : execute action { state with queue := left } generator =
      .ok ⟨after, drawn, .ok outcome⟩)
    (pushed : Container.pushOutcome outcome after.queue = .ok queue) :
    Intact { after with queue } := by
  have valid := (Queue.perform_valid intact.valid accepted).1
  cases execute_executes executed with
  | @done merchant next _ _ undecided active does =>
      have placed := ((Placed.withQueue intact.placed left).withActive active does).withQueue queue
      rw [Container.pushOutcome_eq] at pushed
      split at pushed
      · cases pushed
        exact ⟨valid, placed⟩
      · exact ⟨(Queue.push_valid valid does.followUps_valid pushed).1, placed⟩

theorem intact_of_started (placed : state.Placed)
    (started : startNextTurn { state with queue := .empty } = .ok begun) : Intact begun := by
  obtain ⟨_, _, _, _, _, merchant, opened⟩ := startNextTurn_eq_ok rfl started
  obtain ⟨plays, shaped, _⟩ := opened.shaped
  exact ⟨shaped.valid, (placed.withQueue .empty).opened rfl started⟩

theorem upheld_intact : Upheld Intact Placed Intact :=
  GatedGame.upheld (fun left _ placed => placed.withQueue left) performs_intact
    (fun intact accepted => (Queue.skip_shrinks intact.valid accepted).1) intact_of_started

theorem service_keeps : Play.Respects service Intact Intact := by
  intro request play after events keeps served
  cases request
  cases served
  have intact := keeps.here
  exact .inl ⟨⟨Queue.release_valid intact.valid, Placed.withQueue intact.placed _⟩, keeps.back⟩

/-! ### No call breaks down -/

theorem few_of_snapshot (snapped : TurnGame.snapshot state = .ok taken) :
    state.places.length < UInt64.size ∧ state.queue.length + 2 ≤ Obligation.capacity := by
  -- every place and every obligation takes a byte of it at least
  have small := Snapshot.length_write_of_encode snapped
  have places := length_le_write_list rfl state.places
  have pool := length_le_write_list rfl state.queue.anyTime
  have order := length_le_write_list rfl state.queue.order
  rw [write_state, write_queue] at small
  simp only [List.length_append, Snapshot.sizeLimit, UInt64.size] at small
  simp only [Queue.length, Obligation.capacity, UInt64.size]
  omega

theorem sturdy_of_intact (intact : Intact state)
    (poor : ∀ merchant ∈ state.merchants.seats, merchant.lira.toNat + 255 < UInt32.size)
    (counts : state.turn.toNat + 1 < UInt32.size) : Play.Sturdy state where
  performs := (Queue.Valid.unbroken intact.valid).perform
  executes generator snapped _ := by
    obtain ⟨few, _⟩ := few_of_snapshot snapped
    exact execute_returns _ generator (Placed.withQueue intact.placed _) few poor
  pushes := by
    intro taken action consumed generator drawn after outcome snapped accepted executed
    obtain ⟨valid, shorter⟩ := Queue.perform_valid intact.valid accepted
    obtain ⟨_, few⟩ := few_of_snapshot snapped
    obtain ⟨left, pushed⟩ :=
      pushOutcome_returns executed valid (Nat.le_trans (Nat.add_le_add_right shorter 2) few)
    have placed := (performs_intact intact accepted executed pushed).placed
    have counts : after.turn.toNat + 1 < UInt32.size := by
      cases execute_executes executed with
      | done => exact counts
    exact ⟨left, pushed, Placed.startable placed counts⟩
  skips := (Queue.Valid.unbroken intact.valid).skip
  skipsAll := (Queue.Valid.unbroken intact.valid).skipAll
  starts left := (Placed.withQueue intact.placed left).startable counts

end State

end TurnObligations.Bazaar
