import TurnObligations.Obligation.Build
import TurnObligations.Proofs.Queue.Run
import TurnObligations.Proofs.Stack
import TurnObligations.Scripted.Game

/-!
A stack and a queue without a pool, side by side. As long as nothing is pushed in front of an obligation
in progress, the two answer every call alike and look alike after it, faults included.
-/

namespace TurnObligations

variable {Action : Type}

/-! ### Skips of any stack -/

namespace Container

variable {C : Type} {isEmpty : C → Bool} {skip : C → Except (Stop Action) C}

theorem skipUntilEmpty_of_stays {container : C} (stays : skip container = .ok container)
    (pending : isEmpty container = false) (fuel : Nat) :
    skipUntilEmpty isEmpty skip fuel container = .error (.faulted .endlessSkip) := by
  induction fuel with
  | zero => simp [skipUntilEmpty, pending]
  | succ fuel ih => simp [skipUntilEmpty, pending, stays, ok_bind, ih]

end Container

namespace Stack

open Container (skipUntilEmpty skipUntilEmpty_of_stays)

theorem skip_cons (front : Obligation Action) (rest : List (Obligation Action)) :
    (⟨front :: rest⟩ : Stack Action).skip = front.skip.map fun next => settle next rest := by
  show (front.skip >>= fun next => pure (settle next rest)) = _
  cases front.skip <;> rfl

theorem skipUntilEmpty_fuel (obligations : List (Obligation Action)) {fuel fuel' : Nat}
    (enough : 2 * obligations.length ≤ fuel) (enough' : 2 * obligations.length ≤ fuel') :
    skipUntilEmpty isEmpty skip fuel (⟨obligations⟩ : Stack Action) =
      skipUntilEmpty isEmpty skip fuel' ⟨obligations⟩ := by
  -- two skips for each obligation are all that the outcome can depend on
  induction obligations generalizing fuel fuel' with
  | nil => cases fuel <;> cases fuel' <;> rfl
  | cons front rest ih =>
      simp only [List.length_cons] at enough enough'
      obtain ⟨fuel, rfl⟩ : ∃ less, fuel = less + 2 := ⟨fuel - 2, by omega⟩
      obtain ⟨fuel', rfl⟩ : ∃ less, fuel' = less + 2 := ⟨fuel' - 2, by omega⟩
      have skipOnce (fuel : Nat) (tree : Obligation Action) :
          skipUntilEmpty isEmpty skip (fuel + 1) (⟨tree :: rest⟩ : Stack Action) =
            tree.skip >>= fun next => skipUntilEmpty isEmpty skip fuel (settle next rest) := by
        rw [skipUntilEmpty, skip_cons]
        cases tree.skip <;> rfl
      have closes {tree : Obligation Action} (final : tree.isFinal = true) :
          settle tree rest = ⟨rest⟩ := by simp [settle, final]
      cases checked : front.checkSkip with
      | error stop =>
          rw [skipOnce, skipOnce, Obligation.skip_eq_error_iff.mpr checked]
          rfl
      | ok =>
          rw [skipOnce, skipOnce, Obligation.skip_eq_ok_iff.mpr ⟨checked, rfl⟩, ok_bind, ok_bind]
          cases final : front.afterSkip.isFinal with
          | true =>
              rw [closes final]
              exact ih (by omega) (by omega)
          | false =>
              have stands : settle front.afterSkip rest = ⟨front.afterSkip :: rest⟩ := by
                simp [settle, final]
              obtain ⟨again, closed | stays⟩ :=
                (Obligation.afterSkip_closes_or_stays checked).resolve_left (by simp [final])
              · rw [stands, skipOnce, skipOnce, Obligation.skip_eq_ok_iff.mpr ⟨again, rfl⟩, ok_bind,
                  ok_bind, closes closed]
                exact ih (by omega) (by omega)
              · have fixed : skip ⟨front.afterSkip :: rest⟩ = .ok ⟨front.afterSkip :: rest⟩ := by
                  rw [skip_cons, Obligation.skip_eq_ok_iff.mpr ⟨again, stays⟩]
                  exact congrArg Except.ok stands
                rw [stands, skipUntilEmpty_of_stays fixed rfl, skipUntilEmpty_of_stays fixed rfl]

end Stack

/-! ### What shows of a run -/

structure Outlook (Action : Type) where
  pending : List (Obligation Action)
  length : Nat
  canSkip : Except Fault Bool
  canPerform : Action → Except Fault Bool
  possibleActions : Except Fault (List Action)

def Container.outlook {C : Type} [Container C Action] (pending : C → List (Obligation Action))
    (container : C) : Outlook Action where
  pending := pending container
  length := length container
  canSkip := canSkip container
  canPerform action := canPerform action container
  possibleActions := possibleActions container

/-- The answer to a call and what shows after it; nothing is looked at after a fault. -/
inductive Entry (Action View : Type) where
  | accepted (after : View)
  | refused (refusal : Refusal Action) (after : View)
  | faulted (fault : Fault)

/-- What shows of a run, call by call. -/
def transcript {Command State View : Type} (apply : Command → State → Except (Stop Action) State)
    (look : State → View) : List Command → State → List (Entry Action View)
  | [], _ => []
  | command :: rest, state =>
      match apply command state with
      | .ok next => .accepted (look next) :: transcript apply look rest next
      | .error (.refused refusal) => .refused refusal (look state) :: transcript apply look rest state
      | .error (.faulted fault) => [.faulted fault]

/-- A call to a stack and a queue side by side; only the queue has anything to release. -/
inductive Lockstep.Command (Action : Type) where
  | common (command : Container.Command Action)
  | release

def Lockstep.Command.isPush : Command Action → Bool
  | .common (.push _) => true
  | _ => false

section Calls

variable [DecidableEq Action]

def Stack.follow : Lockstep.Command Action → Stack Action → Except (Stop Action) (Stack Action)
  | .common command, stack => Container.apply command stack
  | .release, stack => .ok stack

def Queue.follow : Lockstep.Command Action → Queue Action → Except (Stop Action) (Queue Action)
  | .common command, queue => Container.apply command queue
  | .release, queue => .ok queue.release

/-- Along the run, nothing is pushed while an obligation is in progress. -/
def Queue.PushesAtRest : List (Lockstep.Command Action) → Queue Action → Prop
  | [], _ => True
  | command :: rest, queue =>
      (command.isPush = true → queue.current = none) ∧
        match attempt follow command queue with
        | .ok next => PushesAtRest rest next
        | .error _ => True

instance Queue.decidablePushesAtRest :
    (commands : List (Lockstep.Command Action)) → (queue : Queue Action) →
      Decidable (queue.PushesAtRest commands)
  | [], _ => isTrue trivial
  | command :: rest, queue =>
      match step : attempt follow command queue with
      | .ok next =>
          have later := decidablePushesAtRest rest next
          decidable_of_iff
            ((command.isPush = true → queue.current = none) ∧ next.PushesAtRest rest)
            (by simp [PushesAtRest, step])
      | .error _ =>
          decidable_of_iff (command.isPush = true → queue.current = none)
            (by simp [PushesAtRest, step])

end Calls

/-! ### A queue that mirrors a stack -/

namespace Queue

/-- The queue holds what the stack holds, with nothing beside it, and only the front may be in
progress. -/
structure Mirrors (queue : Queue Action) (stack : Stack Action) : Prop where
  pool : queue.anyTime = []
  order : queue.order = stack.obligations
  slot : queue.current = none ∨ (queue.current = some (.queue 0) ∧ queue.order ≠ [])

inductive Agree : Except (Stop Action) (Stack Action) → Except (Stop Action) (Queue Action) → Prop
  | happened {stack : Stack Action} {queue : Queue Action} (mirrors : queue.Mirrors stack) :
      Agree (.ok stack) (.ok queue)
  | stopped (stop : Stop Action) : Agree (.error stop) (.error stop)

variable {queue : Queue Action} {stack : Stack Action}

theorem Mirrors.released (mirrors : queue.Mirrors stack) (order : queue.order = []) :
    queue.current = none :=
  mirrors.slot.resolve_right fun pending => pending.2 order

theorem Mirrors.isEmpty (mirrors : queue.Mirrors stack) : queue.isEmpty = stack.isEmpty := by
  rw [Queue.isEmpty, length, mirrors.pool, mirrors.order, Stack.isEmpty]
  cases stack.obligations <;> rfl

theorem Mirrors.front {front : Obligation Action} {rest : List (Obligation Action)}
    (mirrors : queue.Mirrors ⟨front :: rest⟩) :
    queue.skipTarget = some (.queue 0) ∧ queue.get? (.queue 0) = some front := by
  have order := mirrors.order
  refine ⟨?_, by simp [get?, order]⟩
  rcases mirrors.slot with current | ⟨current, _⟩
  · simp [skipTarget, current, front?, order]
  · simp [skipTarget, current]

theorem Mirrors.settle {front : Obligation Action} {rest : List (Obligation Action)}
    (mirrors : queue.Mirrors ⟨front :: rest⟩) (next : Obligation Action) :
    (queue.settle (.queue 0) next).Mirrors (Stack.settle next rest) := by
  have order := mirrors.order
  rw [Queue.settle, Stack.settle]
  cases final : next.isFinal with
  | true => exact ⟨mirrors.pool, by simp [order], .inl rfl⟩
  | false => exact ⟨mirrors.pool, by simp [order], .inr ⟨rfl, by simp [order]⟩⟩

theorem Mirrors.release (mirrors : queue.Mirrors stack) : queue.release.Mirrors stack :=
  ⟨mirrors.pool, mirrors.order, .inl rfl⟩

theorem Mirrors.dropIdle (mirrors : queue.Mirrors stack) : queue.dropIdle.Mirrors stack := by
  rw [Queue.dropIdle]
  split
  · next idle =>
      have none : queue.order = [] := List.isEmpty_iff.mp idle
      exact ⟨rfl, none.symm.trans mirrors.order, .inl rfl⟩
  · exact mirrors

theorem empty_mirrors : (empty : Queue Action).Mirrors Stack.empty := ⟨rfl, rfl, .inl rfl⟩

theorem Mirrors.push {pushed : List (Obligation Action)} (mirrors : queue.Mirrors stack)
    (rest : queue.current = none) :
    Agree (.ok (stack.push pushed)) (Stop.ofFault (queue.push pushed)) := by
  rw [Queue.push_eq, rest]
  refine .happened ⟨mirrors.pool, ?_, .inl rfl⟩
  rw [Stack.push_obligations, mirrors.order]

theorem Mirrors.skip (mirrors : queue.Mirrors stack) : Agree stack.skip queue.skip := by
  obtain ⟨obligations⟩ := stack
  cases obligations with
  | nil =>
      have order : queue.order = [] := mirrors.order
      simp only [Queue.skip, skipTarget, mirrors.released order, front?, order, mirrors.pool]
      exact .stopped _
  | cons front rest =>
      obtain ⟨target, here⟩ := mirrors.front
      rw [Stack.skip_cons]
      simp only [Queue.skip, target, here]
      cases front.skip with
      | error stop => exact .stopped stop
      | ok next => exact .happened (mirrors.settle next).release.dropIdle

theorem Mirrors.skipUntilEmpty (fuel : Nat) (mirrors : queue.Mirrors stack) :
    Agree (Container.skipUntilEmpty Stack.isEmpty Stack.skip fuel stack)
      (Container.skipUntilEmpty Queue.isEmpty Queue.skip fuel queue) := by
  induction fuel generalizing stack queue with
  | zero =>
      rw [Container.skipUntilEmpty, Container.skipUntilEmpty, mirrors.isEmpty]
      cases stack.isEmpty with
      | true => exact .happened mirrors
      | false => exact .stopped _
  | succ fuel ih =>
      rw [Container.skipUntilEmpty, Container.skipUntilEmpty, mirrors.isEmpty]
      cases stack.isEmpty with
      | true => exact .happened mirrors
      | false =>
          have skipped := mirrors.skip
          generalize stack.skip = left at skipped ⊢
          generalize queue.skip = right at skipped ⊢
          cases skipped with
          | happened mirrors => exact ih mirrors
          | stopped stop => exact .stopped stop

theorem Mirrors.skipAll (mirrors : queue.Mirrors stack) : Agree stack.skipAll queue.skipAll := by
  have fuel : 2 * stack.obligations.length ≤ 2 * queue.length + 2 := by
    simp only [length, mirrors.order]
    omega
  rw [Stack.skipAll, Queue.skipAll, Stack.skipUntilEmpty_fuel stack.obligations (Nat.le_refl _) fuel]
  exact mirrors.skipUntilEmpty _

section Perform

variable [DecidableEq Action]

theorem Mirrors.target {front : Obligation Action} {rest : List (Obligation Action)}
    (mirrors : queue.Mirrors ⟨front :: rest⟩) (action : Action) :
    queue.target action = .ok (some (.queue 0)) := by
  rcases mirrors.slot with current | ⟨current, _⟩
  · simp only [Queue.target, current, locate, mirrors.pool, Obligation.firstAccepting, ok_bind, front?,
      mirrors.order]
    rfl
  · rw [Queue.target, current]

theorem Mirrors.perform (action : Action) (mirrors : queue.Mirrors stack) :
    Agree (stack.perform action) (queue.perform action) := by
  obtain ⟨obligations⟩ := stack
  cases obligations with
  | nil =>
      have order : queue.order = [] := mirrors.order
      have target : queue.target action = .ok none := by
        simp only [Queue.target, mirrors.released order, locate, mirrors.pool,
          Obligation.firstAccepting, ok_bind, front?, order]
        rfl
      rw [perform_eq, target]
      exact .stopped _
  | cons front rest =>
      rw [perform_at (mirrors.target action) mirrors.front.2]
      simp only [Stack.perform]
      cases front.canPerform action with
      | error fault => exact .stopped _
      | ok accepted =>
          cases accepted with
          | false => exact .stopped _
          | true =>
              cases front.perform action with
              | error stop => exact .stopped stop
              | ok next => exact .happened (mirrors.settle next)

theorem Mirrors.follow {command : Lockstep.Command Action} (mirrors : queue.Mirrors stack)
    (rest : command.isPush = true → queue.current = none) :
    Agree (stack.follow command) (queue.follow command) := by
  match command with
  | .common (.push pushed) => exact mirrors.push (rest rfl)
  | .common (.perform action) => exact mirrors.perform action
  | .common .skip => exact mirrors.skip
  | .common .skipAll => exact mirrors.skipAll
  | .common .clear => exact .happened empty_mirrors
  | .release => exact .happened mirrors.release

/-! ### The same outlook -/

omit [DecidableEq Action] in
theorem Mirrors.canSkip (mirrors : queue.Mirrors stack) : stack.canSkip = queue.canSkip := by
  obtain ⟨obligations⟩ := stack
  cases obligations with
  | nil =>
      have order : queue.order = [] := mirrors.order
      simp only [Stack.canSkip, Queue.canSkip, skipTarget, mirrors.released order, front?, order,
        mirrors.pool]
      rfl
  | cons front rest =>
      obtain ⟨target, here⟩ := mirrors.front
      simp only [Stack.canSkip, Queue.canSkip, target, here]

theorem Mirrors.canPerform (action : Action) (mirrors : queue.Mirrors stack) :
    stack.canPerform action = queue.canPerform action := by
  obtain ⟨obligations⟩ := stack
  cases obligations with
  | nil =>
      have order : queue.order = [] := mirrors.order
      simp only [Stack.canPerform, Queue.canPerform, mirrors.released order, mirrors.pool, order,
        Obligation.anyCanPerform]
      rfl
  | cons front rest =>
      rcases mirrors.slot with current | ⟨current, _⟩
      · simp only [Stack.canPerform, Queue.canPerform, current, mirrors.pool, mirrors.order,
          Obligation.anyCanPerform]
        rfl
      · simp only [Stack.canPerform, Queue.canPerform, current, mirrors.front.2]

omit [DecidableEq Action] in
theorem Mirrors.possibleActions (mirrors : queue.Mirrors stack) :
    stack.possibleActions = queue.possibleActions := by
  obtain ⟨obligations⟩ := stack
  cases obligations with
  | nil =>
      have order : queue.order = [] := mirrors.order
      simp only [Stack.possibleActions, Queue.possibleActions, current?, mirrors.released order,
        mirrors.pool, order]
      rfl
  | cons front rest =>
      rcases mirrors.slot with current | ⟨current, _⟩
      · simp only [Stack.possibleActions, Queue.possibleActions, current?, current, mirrors.pool,
          mirrors.order]
        exact (Obligation.allPossible_singleton front).symm
      · simp only [Stack.possibleActions, Queue.possibleActions, current?, current, Option.bind_some,
          mirrors.front.2]

theorem Mirrors.outlook (mirrors : queue.Mirrors stack) :
    Container.outlook Stack.obligations stack = Container.outlook trees queue := by
  have pending : stack.obligations = queue.trees := by simp [trees, mirrors.pool, mirrors.order]
  have length : Container.length stack = Container.length queue :=
    (congrArg List.length pending).trans (length_trees queue)
  rw [Container.outlook, Container.outlook, Outlook.mk.injEq]
  exact ⟨pending, length, mirrors.canSkip, funext fun action => mirrors.canPerform action,
    mirrors.possibleActions⟩

theorem Mirrors.transcript {commands : List (Lockstep.Command Action)}
    (mirrors : queue.Mirrors stack) (atRest : queue.PushesAtRest commands) :
    transcript Stack.follow (Container.outlook Stack.obligations) commands stack =
      transcript Queue.follow (Container.outlook trees) commands queue := by
  induction commands generalizing stack queue with
  | nil => rfl
  | cons command rest ih =>
      obtain ⟨resting, later⟩ := atRest
      have answered := mirrors.follow resting
      rw [TurnObligations.transcript, TurnObligations.transcript]
      rw [attempt] at later
      generalize stack.follow command = left at answered ⊢
      generalize queue.follow command = right at answered later ⊢
      cases answered with
      | happened next =>
          show Entry.accepted _ :: _ = Entry.accepted _ :: _
          rw [next.outlook, ih next later]
      | stopped stop =>
          cases stop with
          | refused refusal =>
              show Entry.refused refusal _ :: _ = Entry.refused refusal _ :: _
              rw [mirrors.outlook, ih mirrors later]
          | faulted fault => rfl

end Perform

end Queue

/-! ### From empty -/

/-- A stack and a queue, both empty at first, are called alike, and nothing is pushed while the queue
has an obligation in progress: call by call they give the same answer, hold the same obligations and
tell the same of them. The trees pushed need not be valid. -/
theorem stack_queue_lockstep [DecidableEq Action] (commands : List (Lockstep.Command Action))
    (atRest : Queue.empty.PushesAtRest commands) :
    transcript Stack.follow (Container.outlook Stack.obligations) commands Stack.empty =
      transcript Queue.follow (Container.outlook Queue.trees) commands Queue.empty :=
  Queue.empty_mirrors.transcript atRest

open Obligation (freshAny freshRepeat mandatory) in
theorem stack_queue_lockstep_partly :
    let pair : Obligation Scripted.Action := freshAny [freshRepeat 1 2 (mandatory .a), mandatory .b]
    let commands : List (Lockstep.Command Scripted.Action) :=
      [.common (.push [pair, .optional .c]), .common (.perform .a), .common (.perform .d),
        .common (.perform .a), .common .skipAll, .common (.push [.optional .c, mandatory .d]),
        .common .skipAll, .release, .common (.push [pair]), .common .skip]
    Queue.empty.PushesAtRest commands ∧
      transcript Stack.follow (Container.outlook Stack.obligations) commands Stack.empty =
        transcript Queue.follow (Container.outlook Queue.trees) commands Queue.empty := by
  intro pair commands
  have atRest : Queue.empty.PushesAtRest commands := by decide
  exact ⟨atRest, stack_queue_lockstep commands atRest⟩

end TurnObligations
