import TurnObligations.Proofs.Answer

/-!
Runs of commands. A refused command leaves the state as it was and the run goes on; a fault ends it.
-/

namespace TurnObligations

variable {Action Command State : Type}

def attempt (apply : Command → State → Except (Stop Action) State) (command : Command)
    (state : State) : Except Fault State :=
  match apply command state with
  | .ok next => .ok next
  | .error (.refused _) => .ok state
  | .error (.faulted fault) => .error fault

/-- The state after a run of commands, each accepted or refused. -/
def attemptAll (apply : Command → State → Except (Stop Action) State) :
    List Command → State → Except Fault State
  | [], state => .ok state
  | command :: rest, state => attempt apply command state >>= attemptAll apply rest

/-- The state after a run of commands, all of them accepted. -/
def applyAll (apply : Command → State → Except (Stop Action) State) :
    List Command → State → Except (Stop Action) State
  | [], state => .ok state
  | command :: rest, state => apply command state >>= applyAll apply rest

variable {apply : Command → State → Except (Stop Action) State}

theorem attempt_cases {command : Command} {state next : State}
    (attempted : attempt apply command state = .ok next) :
    apply command state = .ok next ∨ next = state := by
  rw [attempt] at attempted
  split at attempted
  · next applied => exact .inl (applied.trans (congrArg Except.ok (Except.ok.inj attempted)))
  · exact .inr (Except.ok.inj attempted).symm
  · cases attempted

/-- A refusal carries no state: the one that the command was tried on stays. -/
theorem attempt_of_refused {command : Command} {state : State} {refusal : Refusal Action}
    (refused : apply command state = .error (.refused refusal)) :
    attempt apply command state = .ok state := by
  rw [attempt, refused]

theorem attempt_of_faultless {command : Command} {state : State}
    (faultless : Faultless (apply command state)) :
    ∃ next, attempt apply command state = .ok next := by
  rw [attempt]
  split
  · exact ⟨_, rfl⟩
  · exact ⟨_, rfl⟩
  · next fault stopped => exact absurd stopped (faultless fault)

theorem attemptAll_preserves {invariant : State → Prop} {commands : List Command}
    (preserves : ∀ command ∈ commands, ∀ state next, invariant state →
      apply command state = .ok next → invariant next)
    {start reached : State} (initial : invariant start)
    (ran : attemptAll apply commands start = .ok reached) : invariant reached := by
  induction commands generalizing start with
  | nil => exact Except.ok.inj ran ▸ initial
  | cons command rest ih =>
      obtain ⟨next, attempted, onward⟩ := bind_eq_ok.mp ran
      have nextHolds : invariant next := by
        rcases attempt_cases attempted with applied | rfl
        · exact preserves command (by simp) start next initial applied
        · exact initial
      exact ih (fun command member => preserves command (by simp [member])) nextHolds onward

theorem attemptAll_total {invariant : State → Prop} {commands : List Command}
    (preserves : ∀ command ∈ commands, ∀ state next, invariant state →
      apply command state = .ok next → invariant next)
    (faultless : ∀ command ∈ commands, ∀ state, invariant state → Faultless (apply command state))
    {start : State} (initial : invariant start) :
    ∃ reached, attemptAll apply commands start = .ok reached := by
  induction commands generalizing start with
  | nil => exact ⟨start, rfl⟩
  | cons command rest ih =>
      obtain ⟨next, attempted⟩ := attempt_of_faultless (faultless command (by simp) start initial)
      have nextHolds : invariant next := by
        rcases attempt_cases attempted with applied | rfl
        · exact preserves command (by simp) start next initial applied
        · exact initial
      rw [attemptAll, attempted, ok_bind]
      exact ih (fun command member => preserves command (by simp [member]))
        (fun command member => faultless command (by simp [member])) nextHolds

theorem applyAll_preserves {invariant : State → Prop} {commands : List Command}
    (preserves : ∀ command ∈ commands, ∀ state next, invariant state →
      apply command state = .ok next → invariant next)
    {start reached : State} (initial : invariant start)
    (ran : applyAll apply commands start = .ok reached) : invariant reached := by
  induction commands generalizing start with
  | nil => exact Except.ok.inj ran ▸ initial
  | cons command rest ih =>
      obtain ⟨next, applied, onward⟩ := bind_eq_ok.mp ran
      exact ih (fun command member => preserves command (by simp [member]))
        (preserves command (by simp) start next initial applied) onward

theorem applyAll_append_eq_ok {earlier later : List Command} {state reached : State} :
    applyAll apply (earlier ++ later) state = .ok reached ↔
      ∃ between, applyAll apply earlier state = .ok between ∧
        applyAll apply later between = .ok reached := by
  induction earlier generalizing state with
  | nil => simp [applyAll]
  | cons command rest ih =>
      simp only [List.cons_append, applyAll, bind_eq_ok, ih]
      constructor
      · rintro ⟨next, applied, between, ran, onward⟩
        exact ⟨between, ⟨next, applied, ran⟩, onward⟩
      · rintro ⟨between, ⟨next, applied, ran⟩, onward⟩
        exact ⟨next, applied, between, ran, onward⟩

theorem applyAll_concat_eq_ok {commands : List Command} {command : Command}
    {state reached : State} :
    applyAll apply (commands ++ [command]) state = .ok reached ↔
      ∃ between, applyAll apply commands state = .ok between ∧
        apply command between = .ok reached := by
  simp only [applyAll_append_eq_ok, applyAll, bind_eq_ok, Except.ok.injEq, exists_eq_right]

end TurnObligations
