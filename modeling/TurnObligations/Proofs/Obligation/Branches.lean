import TurnObligations.Proofs.Obligation.Built
import TurnObligations.Proofs.Invariant

/-!
One branch of an `any` node at a time. While a branch is in progress it takes every move, and the
others wait as they were at the start; the index of the branch survives what is taken out around it.
-/

namespace TurnObligations.Obligation

variable {Action : Type} [DecidableEq Action]

/-! ### Where a command lands -/

section Landing

variable {before after held : List (Obligation Action)} {branch now next : Obligation Action}
  {index : UInt64} {action : Action}

theorem firstAccepting_append (passed : ∀ earlier ∈ before, earlier.canPerform action = .ok false)
    (accepts : branch.canPerform action = .ok true) :
    firstAccepting action (before ++ branch :: after) = .ok (some before.length) := by
  induction before with
  | nil =>
      rw [List.nil_append, firstAccepting, accepts]
      rfl
  | cons first rest ih =>
      have later := ih fun earlier member => passed earlier (by simp [member])
      rw [List.cons_append, firstAccepting, passed first (by simp), later]
      rfl

theorem perform_busy (here : index.toNat = before.length) :
    (any (before ++ now :: after) (some index)).perform action =
      now.perform action >>= fun left => .ok (afterBranch before left after) := by
  simp only [perform, here, pure_bind, performAt_here, Option.getD_some, afterBranch_eq]
  rfl

theorem perform_idle_iff (valid : ∀ branch ∈ held, branch.Valid) :
    (any held none).perform action = .ok next ↔
      ∃ before branch after left, held = before ++ branch :: after ∧
        (∀ earlier ∈ before, earlier.canPerform action = .ok false) ∧
        branch.perform action = .ok left ∧ next = afterBranch before left after := by
  have landing {before branch after}
      (passed : ∀ earlier ∈ before, earlier.canPerform action = .ok false)
      (accepts : branch.canPerform action = .ok true) :
      (any (before ++ branch :: after) none).perform action =
        branch.perform action >>= fun left => .ok (afterBranch before left after) := by
    simp only [perform, firstAccepting_append passed accepts, lift_ok, ok_bind, performAt_here,
      Option.getD_some, afterBranch_eq]
    rfl
  constructor
  · intro performed
    rcases firstAccepting_cases fun branch member => canPerform_answers action (valid branch member)
      with ⟨before, branch, after, rfl, passed, accepts, _⟩ | ⟨none, found⟩
    · have refused (earlier) (member : earlier ∈ before) : earlier.canPerform action = .ok false :=
        (canPerform_answers action (valid earlier (by simp [member]))).eq_ok_of_iff
          (by simp [passed earlier member])
      have accepted : branch.canPerform action = .ok true :=
        (canPerform_answers action (valid branch (by simp))).eq_ok_of_iff (by simp [accepts])
      rw [landing refused accepted, bind_eq_ok] at performed
      obtain ⟨left, taken, same⟩ := performed
      exact ⟨before, branch, after, left, rfl, refused, taken, (Except.ok.inj same).symm⟩
    · rw [perform, found] at performed
      cases performed
  · rintro ⟨before, branch, after, left, rfl, passed, taken, rfl⟩
    have accepted := (valid branch (by simp)).predicted.canPerform action
    rw [taken] at accepted
    rw [landing passed accepted, taken, ok_bind]

omit [DecidableEq Action] in
theorem checkSkip_busy (here : index.toNat = before.length) :
    (any (before ++ now :: after) (some index)).checkSkip = now.checkSkip := by
  simp [checkSkip, checkSkipAt_eq, here]

omit [DecidableEq Action] in
theorem skip_busy (here : index.toNat = before.length)
    (skipped : (any (before ++ now :: after) (some index)).skip = .ok next) :
    next = .any (before ++ after) none := by
  obtain ⟨_, rfl⟩ := skip_eq_ok_iff.mp skipped
  simp [afterSkip, here, List.eraseIdx_append_of_length_le]

end Landing

/-! ### One branch at a time -/

variable {branches : List (Obligation Action)}

/-- The branches left of an `any` node are as they were at the start, all but the one in progress: that
one has been through the moves `since` it was begun. -/
inductive OneAtATime (branches : List (Obligation Action)) :
    List Action → Obligation Action → Prop
  | idle {held} (kept : held.Sublist branches) : OneAtATime branches [] (.any held none)
  | busy {before origin after now index since} (kept : (before ++ origin :: after).Sublist branches)
      (here : index.toNat = before.length) (unresolved : now.isFinal = false)
      (ran : applyAll perform since origin = .ok now) :
      OneAtATime branches since (.any (before ++ now :: after) (some index))

def inProgress : Obligation Action → Bool
  | .any _ current => current.isSome
  | _ => false

/-- The moves accepted since no branch was in progress, after `since` before the commands. -/
def sinceIdle (since : List Action) : List (Command Action) → Obligation Action → List Action
  | [], _ => since
  | command :: rest, tree =>
      match apply command tree with
      | .ok next =>
          sinceIdle (if next.inProgress then since ++ command.move?.toList else []) rest next
      | .error _ => sinceIdle since rest tree

theorem oneAtATime_afterBranch {before after : List (Obligation Action)}
    {origin left : Obligation Action} {since : List Action} (fits : branches.length ≤ capacity)
    (kept : (before ++ origin :: after).Sublist branches)
    (ran : applyAll perform since origin = .ok left) :
    OneAtATime branches (if (afterBranch before left after).inProgress then since else [])
      (afterBranch before left after) := by
  rw [afterBranch]
  by_cases final : left.isFinal = true
  · rw [if_pos final]
    refine .idle (List.Sublist.trans ?_ kept)
    exact List.Sublist.append_left (List.sublist_cons_self ..) before
  · rw [if_neg final]
    have longer := kept.length_le
    have here : (UInt64.ofNat before.length).toNat = before.length := by
      refine UInt64.toNat_ofNat_of_lt ?_
      simp only [List.length_append, List.length_cons, capacity] at longer fits
      simp only [UInt64.size] at fits ⊢
      omega
    exact .busy kept here (Bool.eq_false_iff.mpr final) ran

theorem OneAtATime.step {since : List Action} {tree next : Obligation Action}
    {command : Command Action} (valid : ∀ branch ∈ branches, branch.Valid)
    (fits : branches.length ≤ capacity) (holds : OneAtATime branches since tree)
    (applied : apply command tree = .ok next) :
    OneAtATime branches (if next.inProgress then since ++ command.move?.toList else []) next := by
  cases holds with
  | @idle held kept =>
      cases command with
      | perform action =>
          obtain ⟨before, branch, after, left, rfl, _, taken, rfl⟩ :=
            (perform_idle_iff fun branch member => valid branch (kept.subset member)).mp applied
          exact oneAtATime_afterBranch fits kept (applyAll_concat_eq_ok.mpr ⟨branch, rfl, taken⟩)
      | skip =>
          obtain ⟨_, rfl⟩ := skip_eq_ok_iff.mp applied
          exact .idle (List.nil_sublist _)
  | @busy before origin after now index since kept here unresolved ran =>
      cases command with
      | perform action =>
          change perform action _ = _ at applied
          rw [perform_busy here, bind_eq_ok] at applied
          obtain ⟨left, taken, same⟩ := applied
          cases same
          exact oneAtATime_afterBranch fits kept (applyAll_concat_eq_ok.mpr ⟨now, ran, taken⟩)
      | skip =>
          rw [skip_busy here applied]
          refine .idle (List.Sublist.trans ?_ kept)
          exact List.Sublist.append_left (List.sublist_cons_self ..) before

theorem OneAtATime.run {commands : List (Command Action)} {since : List Action}
    {tree reached : Obligation Action} (valid : ∀ branch ∈ branches, branch.Valid)
    (fits : branches.length ≤ capacity) (holds : OneAtATime branches since tree)
    (ran : attemptAll apply commands tree = .ok reached) :
    OneAtATime branches (sinceIdle since commands tree) reached := by
  induction commands generalizing since tree with
  | nil => exact Except.ok.inj ran ▸ holds
  | cons command rest ih =>
      obtain ⟨next, attempted, onward⟩ := bind_eq_ok.mp ran
      rw [attempt] at attempted
      rw [sinceIdle]
      cases applied : apply command tree with
      | ok after =>
          rw [applied] at attempted
          cases attempted
          exact ih (holds.step valid fits applied) onward
      | error stop =>
          rw [applied] at attempted
          cases stop with
          | refused refusal =>
              cases attempted
              exact ih holds onward
          | faulted fault => cases attempted

/-- However an `any` node is played, with any moves and skips, accepted or refused. Its branches are
resolved one at a time: what is left of them stands in the order it was given in and untouched, but for
the one in progress, to which every move goes until it is final or skipped. The number of branches is
bounded by the room that a list has for them. -/
theorem any_never_interleaves (nonempty : branches ≠ []) (fits : branches.length ≤ capacity)
    (each : ∀ branch ∈ branches, branch.validate = .ok () ∧ branch.isFinal = false) :
    ∃ fresh, buildAny branches = .ok fresh ∧ ∀ commands : List (Command Action),
      ∃ reached, attemptAll apply commands fresh = .ok reached ∧
        OneAtATime branches (sinceIdle [] commands fresh) reached ∧
        (∀ held, reached = .any held none →
          (∀ action next, reached.perform action = .ok next ↔
            ∃ before branch after left, held = before ++ branch :: after ∧
              (∀ earlier ∈ before, earlier.canPerform action = .ok false) ∧
              branch.perform action = .ok left ∧ next = afterBranch before left after) ∧
          ∃ next, reached.skip = .ok next ∧ next.isFinal = true) ∧
        (∀ before now after index, reached = .any (before ++ now :: after) (some index) →
          index.toNat = before.length →
          (∀ action next, reached.perform action = .ok next ↔
            ∃ left, now.perform action = .ok left ∧ next = afterBranch before left after) ∧
          (reached.skip.isOk = true ↔ now.checkSkip = .ok ()) ∧
          ∀ next, reached.skip = .ok next → next = .any (before ++ after) none) := by
  have valid (branch) (member : branch ∈ branches) : branch.Valid :=
    (validate_eq_ok_iff branch).mp (each branch member).1
  have whole : freshAny branches = .any branches none := by
    rw [freshAny, List.filter_eq_self.mpr fun branch member => by simp [each branch member]]
  have built : buildAny branches = .ok (.any branches none) := by
    simp [buildAny, nonempty, whole, require, bind_unit_eq_ok, pure, Except.pure]
  have freshValid : (any branches none).Valid := by
    simp only [valid_any]
    exact ⟨fun branch member => ⟨(each branch member).2, valid branch member⟩, by simp⟩
  refine ⟨_, built, fun commands => ?_⟩
  obtain ⟨reached, ran, reachedValid⟩ := attemptAll_valid commands freshValid
  have holds := (OneAtATime.idle (List.Sublist.refl branches)).run valid fits ran
  refine ⟨reached, ran, holds, ?_, ?_⟩
  · rintro held rfl
    simp only [valid_any] at reachedValid
    exact ⟨fun _ _ => perform_idle_iff fun branch member => (reachedValid.1 branch member).2,
      _, rfl, rfl⟩
  · rintro before now after index rfl here
    refine ⟨?_, ?_, fun _ => skip_busy here⟩
    · intro action next
      rw [perform_busy here, bind_eq_ok]
      simp only [Except.ok.injEq, eq_comm]
    · rw [skip_isOk_iff, checkSkip_busy here]

theorem any_never_interleaves_refused :
    let branches : List (Obligation Scripted.Action) :=
      [mandatory .b, freshRepeat 1 2 (mandatory .a), mandatory .c]
    branches ≠ [] ∧ branches.length ≤ capacity ∧
      (∀ branch ∈ branches, branch.validate = .ok () ∧ branch.isFinal = false) ∧
      ∃ fresh reached, buildAny branches = .ok fresh ∧
        attemptAll apply [.perform .b, .perform .a, .perform .c] fresh = .ok reached ∧
        OneAtATime branches [.a] reached ∧ reached =
          .any [.repeated 1 2 (mandatory .a) none 1, mandatory .c] (some 0) := by
  intro branches
  have nonempty : branches ≠ [] := by simp [branches]
  have fits : branches.length ≤ capacity := by decide
  have each : ∀ branch ∈ branches, branch.validate = .ok () ∧ branch.isFinal = false := by
    simp only [branches, List.forall_mem_cons]
    exact ⟨⟨rfl, rfl⟩, ⟨rfl, rfl⟩, ⟨rfl, rfl⟩, by simp⟩
  obtain ⟨fresh, built, played⟩ := any_never_interleaves nonempty fits each
  obtain rfl : freshAny branches = fresh := Except.ok.inj built
  obtain ⟨reached, ran, oneAtATime, _⟩ := played [.perform .b, .perform .a, .perform .c]
  exact ⟨nonempty, fits, each, _, reached, built, ran, oneAtATime, (Except.ok.inj ran).symm⟩

end TurnObligations.Obligation
