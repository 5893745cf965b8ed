import TurnObligations.Proofs.Container
import TurnObligations.Stack.Storage

/-!
Stacks of valid trees: what a command does to the front, and that no command leaves them.
-/

namespace TurnObligations.Stack

open Container (skipUntilEmpty_faultless skipUntilEmpty_preserves)

variable {Action : Type}

def Valid (stack : Stack Action) : Prop := ∀ tree ∈ stack.obligations, tree.Valid

theorem validate_eq_ok_iff (stack : Stack Action) : stack.validate = .ok () ↔ stack.Valid := by
  rw [validate, Obligation.validateAll_eq_ok_iff]
  exact forall₂_congr fun tree _ => tree.validate_eq_ok_iff

def Accepts (action : Action) (stack : Stack Action) : Prop :=
  ∃ front ∈ stack.obligations.head?, front.Accepts action

def Skippable (stack : Stack Action) : Prop :=
  ∃ front ∈ stack.obligations.head?, front.checkSkip = .ok ()

theorem Valid.front {stack : Stack Action} {front : Obligation Action}
    {rest : List (Obligation Action)} (valid : stack.Valid)
    (shape : stack.obligations = front :: rest) : front.Valid :=
  valid front (by simp [shape])

theorem settle_obligations (next : Obligation Action) (rest : List (Obligation Action)) :
    (settle next rest).obligations = (Obligation.stillOpen next).toList ++ rest := by
  rw [settle, Obligation.stillOpen]
  cases next.isFinal <;> rfl

theorem settle_forall {holds : Obligation Action → Prop} {next : Obligation Action}
    {rest : List (Obligation Action)} (nextHolds : holds next) (restHold : ∀ tree ∈ rest, holds tree) :
    ∀ tree ∈ (settle next rest).obligations, holds tree := by
  intro tree member
  simp only [settle_obligations, List.mem_append, Option.mem_toList,
    Obligation.stillOpen_eq_some] at member
  rcases member with ⟨_, rfl⟩ | later
  · exact nextHolds
  · exact restHold tree later

theorem settle_valid {next : Obligation Action} {rest : List (Obligation Action)}
    (nextValid : next.Valid) (restValid : ∀ tree ∈ rest, tree.Valid) : (settle next rest).Valid :=
  settle_forall nextValid restValid

theorem push_valid {pushed : List (Obligation Action)} {stack : Stack Action}
    (valid : stack.Valid) (pushedValid : ∀ tree ∈ pushed, tree.Valid) :
    (stack.push pushed).Valid := by
  intro tree member
  rw [push_obligations] at member
  rcases List.mem_append.mp member with new | old
  · exact pushedValid tree (List.mem_filter.mp new).1
  · exact valid tree old

theorem pushOutcome_eq [DecidableEq Action] (outcome : Outcome Action) (stack : Stack Action) :
    Container.pushOutcome outcome stack = .ok (stack.push outcome.followUps) := by
  obtain ⟨followUps, undoAllowed⟩ := outcome
  cases followUps <;> rfl

/-! ### Queries -/

section Queries

variable [DecidableEq Action] {stack : Stack Action}

theorem canPerform_answers (action : Action) (valid : stack.Valid) :
    Answers (stack.canPerform action) (stack.Accepts action) := by
  obtain ⟨obligations⟩ := stack
  cases obligations with
  | nil => exact (Answers.decided false).congr (by simp [Accepts])
  | cons front rest =>
      exact (Obligation.canPerform_answers action (valid front (by simp))).congr
        (by simp [Accepts])

omit [DecidableEq Action] in
theorem possibleActions_lists (valid : stack.Valid) :
    Lists stack.possibleActions fun action => stack.Accepts action := by
  obtain ⟨obligations⟩ := stack
  cases obligations with
  | nil => exact Lists.nil.congr (by simp [Accepts])
  | cons front rest =>
      exact (Obligation.possibleActions_lists (valid front (by simp))).congr
        (by simp [Accepts])

omit [DecidableEq Action] in
theorem canSkip_answers (valid : stack.Valid) : Answers stack.canSkip stack.Skippable := by
  obtain ⟨obligations⟩ := stack
  cases obligations with
  | nil => exact (Answers.decided false).congr (by simp [Skippable])
  | cons front rest =>
      exact (Obligation.canSkip_answers (valid front (by simp))).congr (by simp [Skippable])

end Queries

/-! ### Commands -/

section Commands

variable [DecidableEq Action] {stack : Stack Action}

theorem perform_cases (action : Action) (valid : stack.Valid) :
    (stack.Accepts action ∧ ∃ front rest next, stack.obligations = front :: rest ∧
      front.Resolves action next ∧ stack.perform action = .ok (settle next rest)) ∨
    (¬stack.Accepts action ∧ stack.perform action = .error (.refused .nothingAvailable)) := by
  obtain ⟨obligations⟩ := stack
  cases obligations with
  | nil => exact .inr ⟨by simp [Accepts], rfl⟩
  | cons front rest =>
      have frontValid : front.Valid := valid front (by simp)
      rcases (Obligation.canPerform_answers action frontValid).cases with
        ⟨accepts, asked⟩ | ⟨refuses, asked⟩
      · obtain ⟨next, performed, resolves⟩ := (Obligation.perform_follows action frontValid).taken accepts
        refine .inl ⟨by simpa [Accepts] using accepts, front, rest, next, rfl, resolves, ?_⟩
        simp only [perform, asked, lift_ok, ok_bind, if_true, performed]
        rfl
      · refine .inr ⟨by simpa [Accepts] using refuses, ?_⟩
        simp only [perform, asked, lift_ok, ok_bind]
        rfl

omit [DecidableEq Action] in
theorem skip_cases (valid : stack.Valid) :
    (stack.Skippable ∧ ∃ front rest, stack.obligations = front :: rest ∧
      front.checkSkip = .ok () ∧ stack.skip = .ok (settle front.afterSkip rest)) ∨
    (¬stack.Skippable ∧ ∃ refusal, stack.skip = .error (.refused refusal)) := by
  obtain ⟨obligations⟩ := stack
  cases obligations with
  | nil => exact .inr ⟨by simp [Skippable], _, rfl⟩
  | cons front rest =>
      cases checked : front.checkSkip with
      | ok =>
          refine .inl ⟨by simpa [Skippable] using checked, front, rest, rfl, checked, ?_⟩
          have skipped : front.skip = .ok front.afterSkip :=
            Obligation.skip_eq_ok_iff.mpr ⟨checked, rfl⟩
          simp only [skip, skipped, ok_bind]
          rfl
      | error stop =>
          have stopped : front.skip = .error stop := Obligation.skip_eq_error_iff.mpr checked
          cases stop with
          | refused refusal =>
              refine .inr ⟨by simp [Skippable, checked], refusal, ?_⟩
              simp only [skip, stopped]
              rfl
          | faulted fault =>
              exact absurd checked (Obligation.checkSkip_faultless (valid front (by simp)) fault)

theorem perform_valid {action : Action} {next : Stack Action} (valid : stack.Valid)
    (performed : stack.perform action = .ok next) : next.Valid := by
  rcases perform_cases action valid with
    ⟨_, front, rest, left, shape, resolves, result⟩ | ⟨_, refused⟩
  · rw [performed, Except.ok.injEq] at result
    subst result
    have restValid : ∀ tree ∈ rest, tree.Valid := fun tree member =>
      valid tree (by simp [shape, member])
    exact settle_valid (resolves.valid (valid.front shape)) restValid
  · rw [performed] at refused
    cases refused

omit [DecidableEq Action] in
theorem skip_shrinks {next : Stack Action} (valid : stack.Valid)
    (skipped : stack.skip = .ok next) :
    next.Valid ∧
      Obligation.skipsLeftAll next.obligations < Obligation.skipsLeftAll stack.obligations := by
  rcases skip_cases valid with ⟨_, front, rest, shape, permitted, result⟩ | ⟨_, refusal, refused⟩
  · rw [skipped, Except.ok.injEq] at result
    subst result
    have frontValid := valid.front shape
    have restValid : ∀ tree ∈ rest, tree.Valid := fun tree member =>
      valid tree (by simp [shape, member])
    refine ⟨settle_valid (Obligation.afterSkip_valid frontValid permitted) restValid, ?_⟩
    have fewer := Obligation.skipsLeftAll_stillOpen_lt frontValid permitted
    rw [shape, settle_obligations]
    simp only [Obligation.skipsLeftAll_append, Obligation.skipsLeftAll_cons]
    omega
  · rw [skipped] at refused
    cases refused

omit [DecidableEq Action] in
theorem skip_faultless (valid : stack.Valid) : Faultless stack.skip := by
  rcases skip_cases valid with ⟨_, _, _, _, _, skipped⟩ | ⟨_, _, refused⟩
  · exact faultless_of_ok skipped
  · exact faultless_of_refused refused

omit [DecidableEq Action] in
theorem isEmpty_of_skipsLeft (stack : Stack Action)
    (none : Obligation.skipsLeftAll stack.obligations = 0) : stack.isEmpty = true := by
  have bounds := Obligation.skipsLeftAll_bounds stack.obligations
  rw [isEmpty, List.isEmpty_iff_length_eq_zero]
  omega

omit [DecidableEq Action] in
theorem skipAll_faultless (valid : stack.Valid) : Faultless stack.skipAll :=
  skipUntilEmpty_faultless isEmpty_of_skipsLeft (fun _ => skip_faultless)
    (fun _ _ => skip_shrinks) valid (Obligation.skipsLeftAll_bounds stack.obligations).2

theorem Valid.decided (valid : stack.Valid) :
    Container.Decided stack (fun action => stack.Accepts action) stack.Skippable where
  canPerform action := canPerform_answers action valid
  possibleActions := possibleActions_lists valid
  perform action := (perform_cases action valid).imp_left
    fun ⟨accepts, _, _, _, _, _, performed⟩ => ⟨accepts, _, performed⟩
  canSkip := canSkip_answers valid
  skip := (skip_cases valid).imp_left
    fun ⟨skippable, _, _, _, _, skipped⟩ => ⟨skippable, _, skipped⟩

theorem Valid.unbroken (valid : stack.Valid) : Container.Unbroken stack :=
  valid.decided.unbroken (skipAll_faultless valid)

theorem apply_valid {command : Container.Command Action} {next : Stack Action}
    (pushedValid : ∀ tree ∈ command.pushed, tree.Valid) (valid : stack.Valid)
    (applied : Container.apply command stack = .ok next) : next.Valid := by
  cases command with
  | push pushed => exact Except.ok.inj applied ▸ push_valid valid pushedValid
  | perform action => exact perform_valid valid applied
  | skip => exact (skip_shrinks valid applied).1
  | skipAll =>
      exact (skipUntilEmpty_preserves (fun _ _ holds skipped => (skip_shrinks holds skipped).1)
        valid applied).1
  | clear =>
      cases applied
      intro tree member
      cases member

theorem apply_faultless (command : Container.Command Action) (valid : stack.Valid) :
    Faultless (Container.apply command stack) := by
  cases command with
  | push pushed => exact fun fault stopped => by cases stopped
  | perform action => exact valid.unbroken.perform action
  | skip => exact skip_faultless valid
  | skipAll => exact skipAll_faultless valid
  | clear => exact fun fault stopped => by cases stopped

theorem attemptAll_valid {commands : List (Container.Command Action)}
    (pushedValid : ∀ command ∈ commands, ∀ tree ∈ command.pushed, tree.Valid)
    (valid : stack.Valid) :
    ∃ reached : Stack Action,
      attemptAll Container.apply commands stack = .ok reached ∧ reached.Valid := by
  have preserves : ∀ command ∈ commands, ∀ before next : Stack Action, before.Valid →
      Container.apply command before = .ok next → next.Valid :=
    fun command member _ _ => apply_valid (pushedValid command member)
  obtain ⟨reached, ran⟩ :=
    attemptAll_total preserves (fun command _ _ => apply_faultless command) valid
  exact ⟨reached, ran, attemptAll_preserves preserves valid ran⟩

end Commands

end TurnObligations.Stack
