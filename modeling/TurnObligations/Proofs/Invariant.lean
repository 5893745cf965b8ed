import TurnObligations.Obligation.Build
import TurnObligations.Proofs.Queue.Run
import TurnObligations.Proofs.Stack
import TurnObligations.Scripted.Game

/-!
Validation is an inductive invariant of trees, stacks and queues. It rules out every fault, and under it
the queries foretell the commands: what may be performed, what is listed as possible and whether a skip
is permitted is what then happens.
-/

namespace TurnObligations

variable {Action : Type} [DecidableEq Action]

theorem Obligation.Valid.everywhere_unbroken {tree : Obligation Action} (valid : tree.Valid) :
    tree.Everywhere Obligation.Unbroken :=
  valid.imp fun _ => Obligation.Valid.unbroken

/-- Whatever commands are tried on a valid tree, stack or queue, and whichever of them are refused,
what is reached is valid again and neither it nor any part of it breaks down under a query or a
command. A queue's pushes need room in memory; nothing else can stop a run. -/
theorem validate_inductive :
    (∀ tree : Obligation Action, tree.validate = .ok () →
      ∀ commands : List (Obligation.Command Action),
        ∃ reached, attemptAll Obligation.apply commands tree = .ok reached ∧
          reached.validate = .ok () ∧ reached.Everywhere Obligation.Unbroken) ∧
    (∀ stack : Stack Action, stack.validate = .ok () →
      ∀ commands : List (Container.Command Action),
        (∀ command ∈ commands, ∀ tree ∈ command.pushed, tree.validate = .ok ()) →
          ∃ reached : Stack Action, attemptAll Container.apply commands stack = .ok reached ∧
            reached.validate = .ok () ∧ Container.Unbroken reached ∧
            ∀ tree ∈ reached.obligations, tree.Everywhere Obligation.Unbroken) ∧
    (∀ queue : Queue Action, queue.validate = .ok () →
      ∀ commands : List (Queue.Command Action),
        (∀ command ∈ commands, ∀ tree ∈ command.pushed, tree.validate = .ok ()) →
          (∀ reached, attemptAll Queue.apply commands queue = .ok reached →
            reached.validate = .ok () ∧ Container.Unbroken reached ∧
            ∀ tree ∈ reached.trees, tree.Everywhere Obligation.Unbroken) ∧
          (queue.length + Queue.pushedInAll commands ≤ Obligation.capacity →
            ∃ reached, attemptAll Queue.apply commands queue = .ok reached)) := by
  simp only [Obligation.validate_eq_ok_iff, Stack.validate_eq_ok_iff, Queue.validate_eq_ok_iff]
  refine ⟨?_, ?_, ?_⟩
  · intro tree valid commands
    obtain ⟨reached, ran, reachedValid⟩ := Obligation.attemptAll_valid commands valid
    exact ⟨reached, ran, reachedValid, reachedValid.everywhere_unbroken⟩
  · intro stack valid commands pushedValid
    obtain ⟨reached, ran, reachedValid⟩ := Stack.attemptAll_valid pushedValid valid
    exact ⟨reached, ran, reachedValid, reachedValid.unbroken,
      fun tree member => (reachedValid tree member).everywhere_unbroken⟩
  · intro queue valid commands pushedValid
    refine ⟨?_, Queue.attemptAll_goes_through pushedValid valid⟩
    intro reached ran
    have reachedValid := Queue.attemptAll_valid pushedValid valid ran
    exact ⟨reachedValid, reachedValid.unbroken,
      fun tree member => (reachedValid.trees tree member).everywhere_unbroken⟩

open Obligation (freshAny freshRepeat freshWhenThen mandatory) in
theorem validate_inductive_run :
    (∃ reached, attemptAll Obligation.apply [.perform Scripted.Action.a, .perform .d, .skip]
        (freshRepeat 1 3 (freshAny [mandatory .a, mandatory .b])) = .ok reached ∧
      reached.validate = .ok () ∧ reached.Everywhere Obligation.Unbroken) ∧
    (∃ reached : Stack Scripted.Action,
      attemptAll Container.apply [.push [Obligation.optional .c], .skipAll, .perform .c]
        (Stack.ofList [freshWhenThen (mandatory .a) (mandatory .b) 0 2]) = .ok reached ∧
      reached.validate = .ok () ∧ Container.Unbroken reached ∧
        ∀ tree ∈ reached.obligations, tree.Everywhere Obligation.Unbroken) ∧
    ∃ reached : Queue Scripted.Action,
      attemptAll Queue.apply
        [.common (.push [freshAny [freshRepeat 2 2 (mandatory .a)]]), .common (.perform .a),
          .common (.push [Obligation.optional .b]), .pushAnyTime (Obligation.optional .c), .common .skip, .release]
        Queue.empty = .ok reached ∧
      reached.validate = .ok () ∧ Container.Unbroken reached ∧
        ∀ tree ∈ reached.trees, tree.Everywhere Obligation.Unbroken := by
  refine ⟨validate_inductive.1 _ rfl _, validate_inductive.2.1 _ rfl _ (by decide), ?_⟩
  have both := validate_inductive.2.2 (Queue.empty : Queue Scripted.Action) rfl
    [.common (.push [freshAny [freshRepeat 2 2 (mandatory .a)]]), .common (.perform .a),
      .common (.push [Obligation.optional .b]), .pushAnyTime (Obligation.optional .c), .common .skip, .release]
    (by decide)
  obtain ⟨reached, ran⟩ := both.2 (by decide)
  exact ⟨reached, ran, both.1 reached ran⟩

/-! ### Queries and commands -/

namespace Obligation

/-- What the queries say of a tree is what the commands do. -/
structure Predicted (tree : Obligation Action) : Prop where
  canPerform : ∀ action, tree.canPerform action = .ok (tree.perform action).isOk
  possibleActions : ∃ offered, tree.possibleActions = .ok offered ∧
    ∀ action, action ∈ offered ↔ (tree.perform action).isOk
  refusal : ∀ action stop, tree.perform action = .error stop →
    stop = .refused (.cannotPerform action)
  canSkip : tree.canSkip = .ok tree.skip.isOk
  checkSkip : ∀ stop, tree.skip = .error stop ↔ tree.checkSkip = .error stop

variable {tree : Obligation Action}

theorem perform_isOk_iff (action : Action) (valid : tree.Valid) :
    (tree.perform action).isOk = true ↔ tree.Accepts action := by
  rcases perform_follows action valid with ⟨next, performed, resolves⟩ | ⟨refuses, refused⟩
  · exact isOk_iff_of_ok resolves.accepts performed
  · exact isOk_iff_of_error refuses refused

omit [DecidableEq Action] in
theorem skip_isOk_iff : tree.skip.isOk = true ↔ tree.checkSkip = .ok () := by
  cases checked : tree.checkSkip with
  | ok => exact isOk_iff_of_ok rfl (skip_eq_ok_iff.mpr ⟨checked, rfl⟩)
  | error stop => exact isOk_iff_of_error nofun (skip_eq_error_iff.mpr checked)

theorem Valid.predicted (valid : tree.Valid) : tree.Predicted where
  canPerform action := (canPerform_answers action valid).eq_ok_of_iff (perform_isOk_iff action valid)
  possibleActions := by
    obtain ⟨offered, listed, told⟩ := possibleActions_lists valid
    exact ⟨offered, listed, fun action => (told action).trans (perform_isOk_iff action valid).symm⟩
  refusal action stop stopped := by
    rcases perform_follows action valid with ⟨next, performed, _⟩ | ⟨_, refused⟩
    · rw [performed] at stopped
      cases stopped
    · rw [refused] at stopped
      exact (Except.error.inj stopped).symm
  canSkip := (canSkip_answers valid).eq_ok_of_iff skip_isOk_iff
  checkSkip _ := skip_eq_error_iff

end Obligation

/-- The queries foretell the commands on every valid tree, and on every stack or queue that is valid
or that commands pushing valid trees have made of an empty one. -/
theorem queries_predict_commands :
    (∀ tree : Obligation Action, tree.validate = .ok () → tree.Predicted) ∧
    (∀ stack : Stack Action,
      (stack.validate = .ok () ∨ ∃ commands : List (Container.Command Action),
        (∀ command ∈ commands, ∀ tree ∈ command.pushed, tree.validate = .ok ()) ∧
          attemptAll Container.apply commands Stack.empty = .ok stack) →
      Container.Predicted stack) ∧
    (∀ queue : Queue Action,
      (queue.validate = .ok () ∨ ∃ commands : List (Queue.Command Action),
        (∀ command ∈ commands, ∀ tree ∈ command.pushed, tree.validate = .ok ()) ∧
          attemptAll Queue.apply commands Queue.empty = .ok queue) →
      Container.Predicted queue) := by
  simp only [Obligation.validate_eq_ok_iff, Stack.validate_eq_ok_iff, Queue.validate_eq_ok_iff]
  refine ⟨fun tree => Obligation.Valid.predicted, ?_, ?_⟩
  · rintro stack (valid | ⟨commands, pushedValid, ran⟩)
    · exact valid.decided.predicted
    · have emptyValid : (Stack.empty : Stack Action).Valid := by simp [Stack.Valid, Stack.empty]
      obtain ⟨reached, ran', valid⟩ := Stack.attemptAll_valid pushedValid emptyValid
      cases Except.ok.inj (ran.symm.trans ran')
      exact valid.decided.predicted
  · rintro queue (valid | ⟨commands, pushedValid, ran⟩)
    · exact valid.decided.predicted
    · exact (Queue.attemptAll_valid pushedValid Queue.empty_valid ran).decided.predicted

theorem queries_predict_commands_pool :
    Obligation.Predicted (.choice [Obligation.mandatory Scripted.Action.a, .optional .b]) ∧
    Container.Predicted (Stack.ofList [Obligation.freshAny [.optional Scripted.Action.a]]) ∧
    Container.Predicted (⟨[.freshRepeat 1 2 (.mandatory .b)], [.mandatory Scripted.Action.a],
      some (.anyTime 0), by decide⟩ : Queue Scripted.Action) :=
  ⟨queries_predict_commands.1 _ rfl, queries_predict_commands.2.1 _ (.inl rfl),
    queries_predict_commands.2.2 _ (.inl rfl)⟩

end TurnObligations
