import TurnObligations.Proofs.Obligation.Budget
import TurnObligations.Scripted.Game

/-!
Every way of playing a tree out ends, within its budget, and ends resolved.
-/

namespace TurnObligations.Obligation

variable {Action : Type} [DecidableEq Action] {tree reached : Obligation Action}

def Command.isMove : Command Action → Bool
  | .perform _ => true
  | .skip => false

theorem applyAll_remaining_le {commands : List (Command Action)} (valid : tree.Valid)
    (ran : applyAll apply commands tree = .ok reached) :
    commands.countP Command.isMove + reached.remaining ≤ tree.remaining := by
  induction commands generalizing tree with
  | nil =>
      cases ran
      exact Nat.le_of_eq (Nat.zero_add _)
  | cons command rest ih =>
      obtain ⟨next, applied, onward⟩ := bind_eq_ok.mp ran
      have later := ih (apply_valid valid applied) onward
      cases command with
      | perform action =>
          have lower := (perform_eq_ok valid applied).remaining_lt
          rw [List.countP_cons_of_pos rfl]
          omega
      | skip =>
          obtain ⟨_, rfl⟩ := skip_eq_ok_iff.mp applied
          have lower := afterSkip_remaining_le tree
          rw [List.countP_cons_of_neg (by simp [Command.isMove])]
          omega

theorem no_endless_moves (valid : tree.Valid) :
    ¬∃ (states : Nat → Obligation Action) (actions : Nat → Action), states 0 = tree ∧
      ∀ turn, (states turn).perform (actions turn) = .ok (states (turn + 1)) := by
  rintro ⟨states, actions, first, moves⟩
  have spent (turn : Nat) :
      (states turn).Valid ∧ turn + (states turn).remaining ≤ tree.remaining := by
    induction turn with
    | zero =>
        rw [first]
        exact ⟨valid, by omega⟩
    | succ turn ih =>
        have resolves := perform_eq_ok ih.1 (moves turn)
        have lower := resolves.remaining_lt
        exact ⟨resolves.valid ih.1, by omega⟩
  have overspent := (spent (tree.remaining + 1)).2
  omega

theorem exists_moves_to_final {tree : Obligation Action} (valid : tree.Valid)
    (live : tree.Live) :
    ∃ (actions : List Action) (final : Obligation Action),
      applyAll apply (actions.map .perform) tree = .ok final ∧ final.isFinal = true := by
  cases final : tree.isFinal with
  | true => exact ⟨[], tree, rfl, final⟩
  | false =>
      obtain ⟨action, accepts⟩ := exists_accepts valid live final
      obtain ⟨next, performed, resolves⟩ := (perform_follows action valid).taken accepts
      have lower := resolves.remaining_lt
      obtain ⟨actions, last, ran, resolved⟩ :=
        exists_moves_to_final (resolves.valid valid) (resolves.live live)
      refine ⟨action :: actions, last, ?_, resolved⟩
      have applied : apply (.perform action) tree = .ok next := performed
      rw [List.map_cons, applyAll, applied, ok_bind]
      exact ran
termination_by tree.remaining

theorem isFinal_of_stuck (valid : tree.Valid) (live : tree.Live)
    (stuck : ∀ action next, tree.perform action ≠ .ok next) : tree.isFinal = true := by
  rw [isFinal_iff_accepts_nothing valid live]
  intro action accepts
  obtain ⟨next, performed, _⟩ := (perform_follows action valid).taken accepts
  exact stuck action next performed

theorem apply_live {command : Command Action} {next : Obligation Action}
    (valid : tree.Valid) (live : tree.Live) (applied : apply command tree = .ok next) :
    next.Live := by
  cases command with
  | perform action => exact (perform_eq_ok valid applied).live live
  | skip =>
      obtain ⟨permitted, rfl⟩ := skip_eq_ok_iff.mp applied
      exact afterSkip_live live permitted

theorem applyAll_valid_live {commands : List (Command Action)} (valid : tree.Valid)
    (live : tree.Live) (ran : applyAll apply commands tree = .ok reached) :
    reached.Valid ∧ reached.Live := by
  have preserves : ∀ command ∈ commands, ∀ before next : Obligation Action,
      before.Valid ∧ before.Live → apply command before = .ok next → next.Valid ∧ next.Live :=
    fun _ _ _ _ both applied => ⟨apply_valid both.1 applied, apply_live both.1 both.2 applied⟩
  exact applyAll_preserves preserves ⟨valid, live⟩ ran

/-- What play on a tree made by the builders can reach, with skips anywhere in between: it is final
exactly when it offers nothing, the moves so far keep to the budget of the first tree, and from there
on no sequence of moves goes on forever and none stops short of a final tree. -/
theorem resolution_ends {tree : Obligation Action} (built : tree.Built)
    {commands : List (Command Action)} {reached : Obligation Action}
    (ran : applyAll apply commands tree = .ok reached) :
    (∃ offered, reached.possibleActions = .ok offered ∧
      (reached.isFinal = true ↔ offered = [])) ∧
    commands.countP Command.isMove ≤ tree.budget ∧
    (¬∃ (states : Nat → Obligation Action) (actions : Nat → Action), states 0 = reached ∧
      ∀ turn, (states turn).perform (actions turn) = .ok (states (turn + 1))) ∧
    ((∀ action next, reached.perform action ≠ .ok next) → reached.isFinal = true) ∧
    ∃ (actions : List Action) (final : Obligation Action),
      applyAll apply (actions.map .perform) reached = .ok final ∧ final.isFinal = true := by
  obtain ⟨valid, live⟩ := applyAll_valid_live built.valid built.live ran
  have spent := applyAll_remaining_le built.valid ran
  rw [built.remaining_eq_budget] at spent
  refine ⟨isFinal_iff_possibleActions_empty valid live, by omega, no_endless_moves valid,
    isFinal_of_stuck valid live, exists_moves_to_final valid live⟩

theorem resolution_ends_forfeited :
    let pair : Obligation Scripted.Action := freshAny [mandatory .a, mandatory .b]
    let commands : List (Command Scripted.Action) := [.perform .a, .skip]
    (choice [freshRepeat 0 2 pair, .optional .c]).Built ∧
      applyAll apply commands (choice [freshRepeat 0 2 pair, .optional .c]) = .ok (choice []) ∧
      commands.countP Command.isMove ≤ (choice [freshRepeat 0 2 pair, .optional .c]).budget := by
  intro pair commands
  have pairMade : buildAnyOfActions [.a, .b] = .ok pair := rfl
  have repeatMade : buildRepeat 0 2 pair = .ok (freshRepeat 0 2 pair) := rfl
  have parts : ∀ part ∈ [freshRepeat 0 2 pair, .optional .c], part.Built :=
    List.forall_mem_cons.mpr ⟨.repeated (built_of_anyOfActions pairMade) repeatMade,
      List.forall_mem_cons.mpr ⟨.optional _, nofun⟩⟩
  have built : (choice [freshRepeat 0 2 pair, .optional .c]).Built := .choice parts (by decide) rfl
  have ran : applyAll apply commands (choice [freshRepeat 0 2 pair, .optional .c]) =
      .ok (choice []) := rfl
  exact ⟨built, ran, (resolution_ends built ran).2.1⟩

end TurnObligations.Obligation
