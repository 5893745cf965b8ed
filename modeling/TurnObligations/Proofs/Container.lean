import TurnObligations.Container
import TurnObligations.Proofs.Obligation.Run

/-!
What stacks and queues share: the commands on a container, and skipping until nothing is pending.
-/

namespace TurnObligations.Container

variable {C Action : Type}

inductive Command (Action : Type) where
  | push (pushed : List (Obligation Action))
  | perform (action : Action)
  | skip
  | skipAll
  | clear

def Command.pushed : Command Action → List (Obligation Action)
  | .push pushed => pushed
  | _ => []

def apply [Container C Action] : Command Action → C → Except (Stop Action) C
  | .push pushed, container => Stop.ofFault (push pushed container)
  | .perform action, container => perform action container
  | .skip, container => skip container
  | .skipAll, container => skipAll container
  | .clear, container => .ok (clear container)

/-! ### Queries and commands -/

/-- One account of which moves are accepted and whether a skip is, for queries and commands alike. -/
structure Decided [Container C Action] (container : C) (accepts : Action → Prop)
    (skippable : Prop) : Prop where
  canPerform : ∀ action, Answers (canPerform action container) (accepts action)
  possibleActions : Lists (possibleActions container) accepts
  perform : ∀ action, (accepts action ∧ ∃ next, perform action container = .ok next) ∨
    (¬accepts action ∧ perform action container = .error (.refused .nothingAvailable))
  canSkip : Answers (canSkip container) skippable
  skip : (skippable ∧ ∃ next, skip container = .ok next) ∨
    (¬skippable ∧ ∃ refusal, skip container = .error (.refused refusal))

/-- No query about the container and no command but a push breaks down. -/
structure Unbroken [Container C Action] (container : C) : Prop where
  perform : ∀ action, Faultless (perform action container)
  skip : Faultless (skip container)
  skipAll : Faultless (skipAll container)
  canSkip : ∃ permitted, canSkip container = .ok permitted
  canPerform : ∀ action, ∃ accepted, canPerform action container = .ok accepted
  possibleActions : ∃ offered, possibleActions container = .ok offered

/-- What the queries say of a container is what the commands do. -/
structure Predicted [Container C Action] (container : C) : Prop where
  canPerform : ∀ action, canPerform action container = .ok (perform action container).isOk
  possibleActions : ∃ offered, possibleActions container = .ok offered ∧
    ∀ action, action ∈ offered ↔ (perform action container).isOk
  refusal : ∀ action stop, perform action container = .error stop →
    stop = .refused .nothingAvailable
  canSkip : canSkip container = .ok (skip container).isOk

namespace Decided

variable [Container C Action] {container : C} {accepts : Action → Prop} {skippable : Prop}

theorem unbroken (decided : Decided container accepts skippable)
    (drains : Faultless (skipAll container)) : Unbroken container where
  perform action := by
    rcases decided.perform action with ⟨_, _, performed⟩ | ⟨_, refused⟩
    · exact faultless_of_ok performed
    · exact faultless_of_refused refused
  skip := by
    rcases decided.skip with ⟨_, _, skipped⟩ | ⟨_, _, refused⟩
    · exact faultless_of_ok skipped
    · exact faultless_of_refused refused
  skipAll := drains
  canSkip := decided.canSkip.imp fun _ => And.left
  canPerform action := (decided.canPerform action).imp fun _ => And.left
  possibleActions := decided.possibleActions.imp fun _ => And.left

theorem perform_isOk_iff (decided : Decided container accepts skippable) (action : Action) :
    (Container.perform action container).isOk = true ↔ accepts action := by
  rcases decided.perform action with ⟨accepted, _, performed⟩ | ⟨rejected, refused⟩
  · exact isOk_iff_of_ok accepted performed
  · exact isOk_iff_of_error rejected refused

theorem skip_isOk_iff (decided : Decided container accepts skippable) :
    (Container.skip container).isOk = true ↔ skippable := by
  rcases decided.skip with ⟨permitted, _, skipped⟩ | ⟨forbidden, _, refused⟩
  · exact isOk_iff_of_ok permitted skipped
  · exact isOk_iff_of_error forbidden refused

theorem predicted (decided : Decided container accepts skippable) : Predicted container where
  canPerform action := (decided.canPerform action).eq_ok_of_iff (decided.perform_isOk_iff action)
  possibleActions := by
    obtain ⟨offered, listed, told⟩ := decided.possibleActions
    exact ⟨offered, listed, fun action => (told action).trans (decided.perform_isOk_iff action).symm⟩
  refusal action stop stopped := by
    rcases decided.perform action with ⟨_, _, performed⟩ | ⟨_, refused⟩
    · cases performed.symm.trans stopped
    · exact (Except.error.inj (refused.symm.trans stopped)).symm
  canSkip := decided.canSkip.eq_ok_of_iff decided.skip_isOk_iff

end Decided

theorem Predicted.offers [Container C Action] {container next : C} {action : Action}
    (predicted : Predicted container) (performed : Container.perform action container = .ok next) :
    ∃ offered, Container.possibleActions container = .ok offered ∧ action ∈ offered := by
  obtain ⟨offered, listed, told⟩ := predicted.possibleActions
  exact ⟨offered, listed, (told action).mpr (by rw [performed]; rfl)⟩

theorem pushOutcome_eq [Container C Action] (outcome : Outcome Action) (container : C) :
    pushOutcome outcome container =
      if outcome.followUps = [] then .ok container else push outcome.followUps container := by
  rw [pushOutcome, Outcome.hasFollowUps]
  cases outcome.followUps <;> rfl

/-! ### Skipping until empty -/

variable {isEmpty : C → Bool} {skip : C → Except (Stop Action) C} {invariant : C → Prop}

theorem skipUntilEmpty_preserves
    (preserves : ∀ container next, invariant container → skip container = .ok next → invariant next)
    {fuel : Nat} {container drained : C} (holds : invariant container)
    (skipped : skipUntilEmpty isEmpty skip fuel container = .ok drained) :
    invariant drained ∧ isEmpty drained = true := by
  induction fuel generalizing container with
  | zero =>
      rw [skipUntilEmpty] at skipped
      split at skipped
      · next done => cases skipped; exact ⟨holds, done⟩
      · cases skipped
  | succ fuel ih =>
      rw [skipUntilEmpty] at skipped
      split at skipped
      · next done => cases skipped; exact ⟨holds, done⟩
      · obtain ⟨next, first, onward⟩ := bind_eq_ok.mp skipped
        exact ih (preserves container next holds first) onward

theorem skipUntilEmpty_faultless {left : C → Nat}
    (empties : ∀ container, left container = 0 → isEmpty container = true)
    (faultless : ∀ container, invariant container → Faultless (skip container))
    (shrinks : ∀ container next, invariant container → skip container = .ok next →
      invariant next ∧ left next < left container)
    {fuel : Nat} {container : C} (holds : invariant container) (enough : left container ≤ fuel) :
    Faultless (skipUntilEmpty isEmpty skip fuel container) := by
  induction fuel generalizing container with
  | zero =>
      rw [skipUntilEmpty, if_pos (empties container (by omega))]
      simp [Faultless]
  | succ fuel ih =>
      rw [skipUntilEmpty]
      split
      · simp [Faultless]
      · cases first : skip container with
        | error stop =>
            have unbroken := faultless container holds
            rw [first] at unbroken
            intro fault stopped
            exact unbroken fault (congrArg Except.error (Except.error.inj stopped))
        | ok next =>
            obtain ⟨nextHolds, fewer⟩ := shrinks container next holds first
            exact ih nextHolds (by omega)

end TurnObligations.Container
