import TurnObligations.Proofs.Lockstep
import TurnObligations.Proofs.Obligation.Branches
import TurnObligations.Proofs.Obligation.Closing

/-!
What becomes of a `choice` node once an action has picked a branch: nothing can tell it from that
branch alone, whatever is called next and whether or not it is accepted. Before that it is as it was
built.
-/

namespace TurnObligations.Obligation

variable {Action : Type} {tree : Obligation Action} [DecidableEq Action]

/-! ### A choice that is made -/

/-- What a tree shows of itself to whoever plays it. -/
structure Appearance (Action : Type) where
  isFinal : Bool
  checkSkip : Except (Stop Action) Unit
  canPerform : Action → Except Fault Bool
  possibleActions : Except Fault (List Action)

def appearance (tree : Obligation Action) : Appearance Action where
  isFinal := tree.isFinal
  checkSkip := tree.checkSkip
  canPerform action := tree.canPerform action
  possibleActions := tree.possibleActions

/-- A `choice` node down to the branch picked, which it holds until that is final. -/
def committed (branch : Obligation Action) : Obligation Action := .choice (stillOpen branch).toList

omit [DecidableEq Action] in
theorem committed_final (final : tree.isFinal = true) : committed tree = .choice [] := by
  rw [committed, stillOpen_final final]
  rfl

omit [DecidableEq Action] in
theorem committed_open (unresolved : tree.isFinal = false) : committed tree = .choice [tree] := by
  rw [committed, stillOpen_open unresolved]
  rfl

theorem appearance_committed (valid : tree.Valid) :
    (committed tree).appearance = tree.appearance := by
  rw [appearance, appearance, Appearance.mk.injEq]
  cases final : tree.isFinal with
  | true =>
      rw [committed_final final]
      exact ⟨rfl, (checkSkip_of_isFinal valid final).symm,
        funext fun action => (canPerform_of_isFinal valid final action).symm,
        (possibleActions_of_isFinal valid final).symm⟩
  | false =>
      rw [committed_open final]
      refine ⟨rfl, rfl, funext fun action => ?_, allPossible_singleton tree⟩
      obtain ⟨accepted, answered, _⟩ := canPerform_answers action valid
      simp only [canPerform, anyCanPerform, answered, ok_bind]
      cases accepted <;> rfl

theorem perform_committed (action : Action) (valid : tree.Valid) :
    (committed tree).perform action = (tree.perform action).map committed := by
  cases final : tree.isFinal with
  | true =>
      rw [committed_final final, perform_refuses_of_isFinal valid final]
      rfl
  | false =>
      rw [committed_open final]
      have predicted := valid.predicted.canPerform action
      cases performed : tree.perform action with
      | ok next =>
          rw [performed] at predicted
          have passed : ∀ earlier ∈ ([] : List (Obligation Action)),
              earlier.canPerform action = .ok false := by simp
          have found : firstAccepting action [tree] = .ok (some 0) :=
            firstAccepting_append passed predicted
          simp only [perform, found, lift_ok, ok_bind, performAt, performed, Option.getD_some]
          rfl
      | error stop =>
          rw [performed] at predicted
          have none : firstAccepting action [tree] = .ok none := by
            rw [firstAccepting, predicted]
            rfl
          rw [valid.predicted.refusal action stop performed, perform, none]
          rfl

omit [DecidableEq Action] in
theorem skip_committed (valid : tree.Valid) :
    (committed tree).skip = tree.skip.map committed := by
  cases final : tree.isFinal with
  | true =>
      rw [skip_of_isFinal valid final, committed_final final, Except.map, committed_final final]
      rfl
  | false =>
      rw [committed_open final]
      show (tree.checkSkip >>= fun _ => pure (committed tree.afterSkip)) =
        (tree.checkSkip >>= fun _ => pure tree.afterSkip).map committed
      cases tree.checkSkip <;> rfl

theorem apply_committed (command : Command Action) (valid : tree.Valid) :
    apply command (committed tree) = (apply command tree).map committed := by
  cases command with
  | perform action => exact perform_committed action valid
  | skip => exact skip_committed valid

theorem transcript_committed (commands : List (Command Action)) (valid : tree.Valid) :
    transcript apply appearance commands (committed tree) =
      transcript apply appearance commands tree := by
  induction commands generalizing tree with
  | nil => rfl
  | cons command rest ih =>
      rw [transcript, transcript, apply_committed command valid]
      cases applied : apply command tree with
      | ok next =>
          have nextValid := apply_valid valid applied
          show Entry.accepted _ :: _ = Entry.accepted _ :: _
          rw [appearance_committed nextValid, ih nextValid]
      | error stop =>
          cases stop with
          | refused refusal =>
              show Entry.refused refusal _ :: _ = Entry.refused refusal _ :: _
              rw [appearance_committed valid, ih valid]
          | faulted fault => rfl

theorem attemptAll_committed (commands : List (Command Action)) (valid : tree.Valid) :
    attemptAll apply commands (committed tree) =
      (attemptAll apply commands tree).map committed := by
  induction commands generalizing tree with
  | nil => rfl
  | cons command rest ih =>
      rw [attemptAll, attemptAll, attempt, attempt, apply_committed command valid]
      cases applied : apply command tree with
      | ok next => exact ih (apply_valid valid applied)
      | error stop =>
          cases stop with
          | refused refusal => exact ih valid
          | faulted fault => rfl

/-! ### Making it -/

section Choosing

variable {branches before after : List (Obligation Action)} {branch next node : Obligation Action}
  {action : Action}

theorem perform_choice (passed : ∀ earlier ∈ before, earlier.canPerform action = .ok false)
    (accepts : branch.canPerform action = .ok true) :
    (choice (before ++ branch :: after)).perform action =
      (branch.perform action).map committed := by
  simp only [perform, firstAccepting_append passed accepts, lift_ok, ok_bind, performAt_here,
    Option.getD_some]
  cases branch.perform action <;> rfl

theorem exists_committed (valid : ∀ branch ∈ branches, branch.Valid)
    (accepted : ∃ branch ∈ branches, ∃ next, branch.perform action = .ok next) :
    ∃ before branch after next, branches = before ++ branch :: after ∧
      (∀ earlier ∈ before, earlier.perform action = .error (.refused (.cannotPerform action))) ∧
      branch.perform action = .ok next ∧ (choice branches).perform action = .ok (committed next) := by
  have answers (branch) (member : branch ∈ branches) := canPerform_answers action (valid branch member)
  rcases firstAccepting_cases answers with ⟨before, branch, after, rfl, passed, accepts, _⟩ | ⟨none, _⟩
  · have branchValid := valid branch (by simp)
    obtain ⟨next, performed, _⟩ := (perform_follows action branchValid).taken accepts
    refine ⟨before, branch, after, next, rfl, ?_, performed, ?_⟩
    · intro earlier member
      exact ((perform_follows action (valid earlier (by simp [member]))).resolve_left
        fun ⟨_, _, resolves⟩ => passed earlier member resolves.accepts).2
    · have refused (earlier) (member : earlier ∈ before) : earlier.canPerform action = .ok false :=
        (answers earlier (by simp [member])).eq_ok_of_iff (by simp [passed earlier member])
      have accepted : branch.canPerform action = .ok true :=
        (answers branch (by simp)).eq_ok_of_iff (by simp [accepts])
      rw [perform_choice refused accepted, performed]
      rfl
  · obtain ⟨branch, member, next, performed⟩ := accepted
    exact absurd (perform_eq_ok (valid branch member) performed).accepts (none branch member)

theorem apply_choice {command : Command Action}
    (applied : apply command (choice branches) = .ok node) :
    ∃ left, node = choice left ∧ (left = branches ∨ left.length ≤ 1) := by
  have single (chosen : Obligation Action) : (stillOpen chosen).toList.length ≤ 1 := by
    rw [Option.length_toList]
    split <;> omega
  cases command with
  | perform action =>
      change perform action _ = _ at applied
      rw [perform] at applied
      obtain ⟨found, _, rest⟩ := bind_eq_ok.mp applied
      cases found with
      | none => cases rest
      | some index =>
          obtain ⟨chosen, _, result⟩ := bind_eq_ok.mp rest
          cases result
          exact ⟨_, rfl, .inr (single chosen)⟩
  | skip =>
      obtain ⟨permitted, rfl⟩ := skip_eq_ok_iff.mp applied
      rcases checkSkip_choice_eq_ok permitted with rfl | ⟨only, rfl, _⟩
      · exact ⟨[], rfl, .inl rfl⟩
      · exact ⟨_, rfl, .inr (single only.afterSkip)⟩

theorem attemptAll_choice {commands : List (Command Action)}
    (ran : attemptAll apply commands (choice branches) = .ok node) :
    ∃ left, node = choice left ∧ (left = branches ∨ left.length ≤ 1) := by
  have preserves : ∀ command ∈ commands, ∀ tree next : Obligation Action,
      (∃ left, tree = choice left ∧ (left = branches ∨ left.length ≤ 1)) →
        apply command tree = .ok next →
          ∃ left, next = choice left ∧ (left = branches ∨ left.length ≤ 1) := by
    rintro command _ _ next ⟨left, rfl, kept⟩ applied
    obtain ⟨left', rfl, kept'⟩ := apply_choice applied
    refine ⟨left', rfl, ?_⟩
    rcases kept' with rfl | few
    · exact kept
    · exact .inr few
  exact attemptAll_preserves preserves ⟨branches, rfl, .inl rfl⟩ ran

end Choosing

/-- The first action that a branch accepts picks the first branch that accepts it. From then on the node
answers every call and every question as that branch alone would after the same action, and holds
nothing else, so that no sibling ever accepts anything. For as long as two branches are live they are
all there, and no skip is permitted. -/
theorem choice_commits {branches : List (Obligation Action)} (nonempty : branches ≠ [])
    (each : ∀ branch ∈ branches, branch.validate = .ok () ∧ branch.isFinal = false) :
    ∃ fresh, buildChoice branches = .ok fresh ∧
      (∀ action, (∃ branch ∈ branches, ∃ next, branch.perform action = .ok next) →
        ∃ before branch after next node, branches = before ++ branch :: after ∧
          (∀ earlier ∈ before,
            earlier.perform action = .error (.refused (.cannotPerform action))) ∧
          branch.perform action = .ok next ∧ fresh.perform action = .ok node ∧
          node.appearance = next.appearance ∧ ∀ commands : List (Command Action),
            transcript apply appearance commands node =
              transcript apply appearance commands next ∧
            attemptAll apply commands node = (attemptAll apply commands next).map committed) ∧
      ∀ commands : List (Command Action), ∃ left,
        attemptAll apply commands fresh = .ok (choice left) ∧
          (2 ≤ left.length → left = branches ∧
            (choice left).skip = .error (.refused .mustChoose)) := by
  have valid (branch) (member : branch ∈ branches) : branch.Valid :=
    (validate_eq_ok_iff branch).mp (each branch member).1
  have built : buildChoice branches = .ok (choice branches) := by
    simp [buildChoice, nonempty, require, bind_unit_eq_ok, pure, Except.pure]
  refine ⟨_, built, ?_, ?_⟩
  · intro action accepted
    obtain ⟨before, branch, after, next, split, passed, performed, committed⟩ :=
      exists_committed valid accepted
    have branchValid := valid branch (by simp [split])
    have nextValid := (perform_eq_ok branchValid performed).valid branchValid
    exact ⟨before, branch, after, next, _, split, passed, performed, committed,
      appearance_committed nextValid, fun commands =>
        ⟨transcript_committed commands nextValid, attemptAll_committed commands nextValid⟩⟩
  · intro commands
    have freshValid : (choice branches).Valid :=
      valid_choice.mpr fun branch member => ⟨(each branch member).2, valid branch member⟩
    obtain ⟨reached, ran, _⟩ := attemptAll_valid commands freshValid
    obtain ⟨left, rfl, kept⟩ := attemptAll_choice ran
    refine ⟨left, ran, fun several => ⟨kept.resolve_right (by omega), ?_⟩⟩
    obtain - | ⟨first, - | ⟨second, rest⟩⟩ := left
    · cases several
    · exact absurd several (by simp)
    · rfl

theorem choice_commits_first :
    let branches : List (Obligation Scripted.Action) :=
      [mandatory .b, freshAny [mandatory .a, optional .c], mandatory .a]
    branches ≠ [] ∧ (∀ branch ∈ branches, branch.validate = .ok () ∧ branch.isFinal = false) ∧
      (∃ branch ∈ branches, ∃ next, branch.perform .a = .ok next) ∧
      ∃ next node, (choice branches).perform .a = .ok node ∧
        (∃ branch ∈ branches, branch.perform .a = .ok next) ∧
        node = .choice [.any [optional .c] none] ∧
        transcript apply appearance [.perform .a, .perform .c, .skip] node =
          transcript apply appearance [.perform .a, .perform .c, .skip] next := by
  intro branches
  have nonempty : branches ≠ [] := by simp [branches]
  have each : ∀ branch ∈ branches, branch.validate = .ok () ∧ branch.isFinal = false := by
    simp only [branches, List.forall_mem_cons]
    exact ⟨⟨rfl, rfl⟩, ⟨rfl, rfl⟩, ⟨rfl, rfl⟩, by simp⟩
  have accepted : ∃ branch ∈ branches, ∃ next, branch.perform .a = .ok next :=
    ⟨mandatory .a, by simp [branches], _, rfl⟩
  obtain ⟨fresh, built, picks, _⟩ := choice_commits nonempty each
  obtain rfl : choice branches = fresh := Except.ok.inj built
  obtain ⟨before, branch, after, next, node, split, _, taken, done, _, same⟩ := picks .a accepted
  have member : branch ∈ branches := by simp [split]
  exact ⟨nonempty, each, accepted, next, node, done, ⟨branch, member, taken⟩,
    (Except.ok.inj done).symm, (same _).1⟩

end TurnObligations.Obligation
