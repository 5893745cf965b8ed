import TurnObligations.Proofs.Obligation.Skip
import TurnObligations.Proofs.Run

/-!
Runs of commands on a tree. Whatever order they come in and whichever are refused, the tree stays
valid, and on a valid tree no query and no command breaks down.
-/

namespace TurnObligations.Obligation

variable {Action : Type} [DecidableEq Action]

inductive Command (Action : Type) where
  | perform (action : Action)
  | skip

def Command.move? : Command Action → Option Action
  | .perform action => some action
  | .skip => none

def apply : Command Action → Obligation Action → Except (Stop Action) (Obligation Action)
  | .perform action, tree => tree.perform action
  | .skip, tree => tree.skip

/-- No query about the tree and no command on it breaks down. -/
structure Unbroken (tree : Obligation Action) : Prop where
  perform : ∀ action, Faultless (tree.perform action)
  skip : Faultless tree.skip
  checkSkip : Faultless tree.checkSkip
  canSkip : ∃ permitted, tree.canSkip = .ok permitted
  canPerform : ∀ action, ∃ accepted, tree.canPerform action = .ok accepted
  possibleActions : ∃ offered, tree.possibleActions = .ok offered
  owed : ∃ count, tree.owed = .ok count

theorem perform_eq_ok {action : Action} {tree next : Obligation Action} (valid : tree.Valid)
    (performed : tree.perform action = .ok next) : tree.Resolves action next := by
  rcases perform_follows action valid with ⟨next', performed', resolves⟩ | ⟨_, refused⟩
  · rw [performed, Except.ok.injEq] at performed'
    exact performed' ▸ resolves
  · rw [performed] at refused
    cases refused

theorem perform_faultless (action : Action) {tree : Obligation Action} (valid : tree.Valid) :
    Faultless (tree.perform action) := by
  rcases perform_follows action valid with ⟨_, performed, _⟩ | ⟨_, refused⟩
  · exact faultless_of_ok performed
  · exact faultless_of_refused refused

omit [DecidableEq Action] in
theorem canSkip_answers {tree : Obligation Action} (valid : tree.Valid) :
    Answers tree.canSkip (tree.checkSkip = .ok ()) := by
  have faultless := checkSkip_faultless valid
  rw [canSkip]
  split
  · next permitted => exact ⟨true, rfl, by simp [permitted]⟩
  · next refused => exact ⟨false, rfl, by simp [refused]⟩
  · next fault stopped => exact absurd stopped (faultless fault)

theorem Valid.unbroken {tree : Obligation Action} (valid : tree.Valid) : tree.Unbroken where
  perform action := perform_faultless action valid
  skip := skip_faultless valid
  checkSkip := checkSkip_faultless valid
  canSkip := (canSkip_answers valid).imp fun _ => And.left
  canPerform action := (canPerform_answers action valid).imp fun _ => And.left
  possibleActions := (possibleActions_lists valid).imp fun _ => And.left
  owed := owed_answers valid

theorem apply_valid {command : Command Action} {tree next : Obligation Action}
    (valid : tree.Valid) (applied : apply command tree = .ok next) : next.Valid := by
  cases command with
  | perform action => exact (perform_eq_ok valid applied).valid valid
  | skip =>
      obtain ⟨permitted, rfl⟩ := skip_eq_ok_iff.mp applied
      exact afterSkip_valid valid permitted

theorem apply_faultless (command : Command Action) {tree : Obligation Action}
    (valid : tree.Valid) : Faultless (apply command tree) := by
  cases command with
  | perform action => exact perform_faultless action valid
  | skip => exact skip_faultless valid

theorem attemptAll_valid (commands : List (Command Action)) {tree : Obligation Action}
    (valid : tree.Valid) : ∃ reached, attemptAll apply commands tree = .ok reached ∧ reached.Valid := by
  have preserves : ∀ command ∈ commands, ∀ state next : Obligation Action, state.Valid →
      apply command state = .ok next → next.Valid := fun _ _ _ _ => apply_valid
  obtain ⟨reached, ran⟩ :=
    attemptAll_total preserves (fun command _ _ => apply_faultless command) valid
  exact ⟨reached, ran, attemptAll_preserves preserves valid ran⟩

end TurnObligations.Obligation
