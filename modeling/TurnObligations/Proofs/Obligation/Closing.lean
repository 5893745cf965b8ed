import TurnObligations.Obligation.Build
import TurnObligations.Proofs.Obligation.Progress
import TurnObligations.Scripted.Game

/-!
How skips close a tree. One is enough, but for a branch in progress whose siblings wait: the first skip
gives up that branch and the second the siblings. Nothing that is called on a closed tree changes it.
-/

namespace TurnObligations.Obligation

variable {Action : Type} {tree : Obligation Action}

/-! ### A tree with nothing left -/

inductive Closed : Obligation Action → Prop
  | single (action : Action) (mandatory : Bool) : Closed (.single action mandatory true)
  | choice : Closed (.choice [])
  | any : Closed (.any [] none)
  | repeated (template : Obligation Action) {atLeast count : UInt32} (enough : atLeast ≤ count) :
      Closed (.repeated atLeast count template none count)
  | whenThen (trigger consequence : Obligation Action) {atLeast whens : UInt32}
      (enough : atLeast ≤ whens) :
      Closed (.whenThen trigger consequence atLeast whens whens whens none)

theorem Valid.closed (valid : tree.Valid) (final : tree.isFinal = true) : tree.Closed := by
  cases tree with
  | single action mandatory completed =>
      have done : completed = true := final
      exact done ▸ .single action mandatory
  | choice branches =>
      have none : branches = [] := List.isEmpty_iff.mp final
      exact none ▸ .choice
  | any branches current =>
      obtain rfl : branches = [] := List.isEmpty_iff.mp final
      simp only [valid_any] at valid
      cases current with
      | none => exact .any
      | some index => exact absurd (valid.2 index rfl) (Nat.not_lt_zero _)
  | repeated atLeast atMost template current count =>
      simp only [isFinal, Bool.and_eq_true, Option.isNone_iff_eq_none, beq_iff_eq] at final
      obtain ⟨rfl, rfl⟩ := final
      simp only [valid_repeated] at valid
      exact .repeated template (UInt32.le_iff_toNat_le.mpr valid.1.1)
  | whenThen trigger consequence atLeast atMost whens thens current =>
      simp only [isFinal, Bool.and_eq_true, Option.isNone_iff_eq_none, beq_iff_eq] at final
      obtain ⟨⟨rfl, rfl⟩, rfl⟩ := final
      simp only [valid_whenThen] at valid
      exact .whenThen trigger consequence (UInt32.le_iff_toNat_le.mpr valid.1.2.2)

theorem checkSkip_of_isFinal (valid : tree.Valid) (final : tree.isFinal = true) :
    tree.checkSkip = .ok () := by
  cases valid.closed final with
  | single => simp [checkSkip]
  | choice => rfl
  | any => rfl
  | repeated _ enough => simp [checkSkip, UInt32.not_lt.mpr enough, checkSkipCurrent]
  | whenThen _ _ enough => simp [checkSkip, UInt32.not_lt.mpr enough, checkSkipCurrent]

theorem afterSkip_of_isFinal (valid : tree.Valid) (final : tree.isFinal = true) :
    tree.afterSkip = tree := by
  cases valid.closed final <;> rfl

theorem skip_of_isFinal (valid : tree.Valid) (final : tree.isFinal = true) : tree.skip = .ok tree :=
  skip_eq_ok_iff.mpr ⟨checkSkip_of_isFinal valid final, afterSkip_of_isFinal valid final⟩

theorem possibleActions_of_isFinal (valid : tree.Valid) (final : tree.isFinal = true) :
    tree.possibleActions = .ok [] := by
  obtain ⟨offered, listed, told⟩ := possibleActions_lists valid
  have nothing : offered = [] := List.eq_nil_iff_forall_not_mem.mpr fun action member =>
    not_accepts_of_isFinal final action ((told action).mp member)
  rw [listed, nothing]

section Moves

variable [DecidableEq Action]

theorem perform_refuses_of_isFinal (valid : tree.Valid) (final : tree.isFinal = true)
    (action : Action) : tree.perform action = refusePerform action := by
  rcases perform_follows action valid with ⟨next, _, resolves⟩ | ⟨_, refused⟩
  · exact absurd resolves.accepts (not_accepts_of_isFinal final action)
  · exact refused

theorem canPerform_of_isFinal (valid : tree.Valid) (final : tree.isFinal = true)
    (action : Action) : tree.canPerform action = .ok false :=
  (canPerform_answers action valid).eq_ok_of_iff
    (iff_of_false Bool.false_ne_true (not_accepts_of_isFinal final action))

theorem attemptAll_of_isFinal (commands : List (Command Action)) (valid : tree.Valid)
    (final : tree.isFinal = true) : attemptAll apply commands tree = .ok tree := by
  induction commands with
  | nil => rfl
  | cons command rest ih =>
      have stays : attempt apply command tree = .ok tree := by
        cases command with
        | perform action => exact attempt_of_refused (perform_refuses_of_isFinal valid final action)
        | skip => rw [attempt, apply, skip_of_isFinal valid final]
      rw [attemptAll, stays, ok_bind, ih]

end Moves

/-! ### What a permitted skip leaves open -/

/-- In the middle of one branch of an `any` node while others wait, be it the tree itself or the last
branch of a `choice`. -/
def othersWait : Obligation Action → Bool
  | .choice [only] => othersWait only
  | .any branches (some _) => 2 ≤ branches.length
  | _ => false

theorem isFinal_afterSkip (valid : tree.Valid) (permitted : tree.checkSkip = .ok ()) :
    tree.afterSkip.isFinal = !tree.othersWait := by
  induction tree using childInduction with
  | node tree ih =>
      cases tree with
      | single => rfl
      | choice branches =>
          rcases checkSkip_choice_eq_ok permitted with rfl | ⟨only, rfl, onlyPermitted⟩
          · rfl
          · simp only [valid_choice, List.mem_singleton, forall_eq] at valid
            have onlyLeft := ih only (by simp [children]) valid.2 onlyPermitted
            rw [afterSkip, isFinal_choice_stillOpen, onlyLeft, othersWait]
      | any branches current =>
          cases current with
          | none => rfl
          | some index =>
              simp only [valid_any] at valid
              have left : (branches.eraseIdx index.toNat).length = branches.length - 1 :=
                List.length_eraseIdx_of_lt (valid.2 index rfl)
              rw [afterSkip, isFinal, othersWait, Bool.eq_iff_iff, List.isEmpty_iff_length_eq_zero,
                left]
              simp only [Bool.not_eq_true', decide_eq_false_iff_not]
              omega
      | repeated => simp [afterSkip, isFinal, othersWait]
      | whenThen =>
          have paid := checkSkip_whenThen_paid valid permitted
          simp [afterSkip, isFinal, othersWait, paid]

variable [DecidableEq Action]

/-- Two skips in a row close a valid tree. The second is needed just where the first gives up a branch in
progress while others wait, and it is permitted there. A skip that leaves a tree as it was has found it
closed, and a closed tree refuses every move by name and stays as it is whatever is called. -/
theorem two_skips_close (valid : tree.validate = .ok ()) :
    (∀ next, tree.skip = .ok next →
      (next.isFinal = true ∨ ∃ closed, next.skip = .ok closed ∧ closed.isFinal = true) ∧
      next.isFinal = !tree.othersWait) ∧
    (tree.skip = .ok tree ↔ tree.isFinal = true) ∧
    (tree.isFinal = true →
      (∀ action, tree.perform action = .error (.refused (.cannotPerform action))) ∧
      ∀ commands : List (Command Action), attemptAll apply commands tree = .ok tree) := by
  rw [validate_eq_ok_iff] at valid
  refine ⟨?_, ⟨?_, skip_of_isFinal valid⟩, fun final => ⟨perform_refuses_of_isFinal valid final,
    fun commands => attemptAll_of_isFinal commands valid final⟩⟩
  · intro next skipped
    obtain ⟨permitted, rfl⟩ := skip_eq_ok_iff.mp skipped
    refine ⟨?_, isFinal_afterSkip valid permitted⟩
    rcases afterSkip_closes valid permitted with closed | ⟨again, closed⟩
    · exact .inl closed
    · exact .inr ⟨_, skip_eq_ok_iff.mpr ⟨again, rfl⟩, closed⟩
  · intro skipped
    obtain ⟨permitted, same⟩ := skip_eq_ok_iff.mp skipped
    exact isFinal_of_afterSkip_eq valid permitted same

theorem two_skips_close_under_choices :
    let repetition : Obligation Scripted.Action := .repeated 1 3 (mandatory .a) none 1
    let tree := choice [choice [any [mandatory .b, repetition] (some 1)]]
    let next : Obligation Scripted.Action := choice [choice [any [mandatory .b] none]]
    tree.validate = .ok () ∧ tree.skip = .ok next ∧ tree.othersWait = true ∧ next.isFinal = false ∧
      (∃ closed, next.skip = .ok closed ∧ closed.isFinal = true) ∧ tree.skip ≠ .ok tree ∧
      ∀ commands : List (Command Scripted.Action),
        attemptAll apply commands (choice [] : Obligation Scripted.Action) = .ok (choice []) := by
  intro repetition tree next
  have valid : tree.validate = .ok () := rfl
  have skipped : tree.skip = .ok next := rfl
  obtain ⟨closes, stays, _⟩ := two_skips_close valid
  obtain ⟨closed, left⟩ := closes next skipped
  have resolved : (choice [] : Obligation Scripted.Action).validate = .ok () := rfl
  exact ⟨valid, skipped, rfl, left, closed.resolve_left (by decide),
    fun same => absurd (stays.mp same) (by decide), ((two_skips_close resolved).2.2 rfl).2⟩

end TurnObligations.Obligation
