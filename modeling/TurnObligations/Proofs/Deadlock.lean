import TurnObligations.Proofs.Obligation.Closing
import TurnObligations.Proofs.Obligation.Termination
import TurnObligations.Proofs.Queue.Run
import TurnObligations.Proofs.Stack
import TurnObligations.Proofs.Storage.RoundTrip

/-!
Which saved stacks and queues can be played on once they are loaded. Loading checks counters and what
is in progress, but not that a template may be started, which is what the builders insist on.
-/

namespace TurnObligations

theorem Obligation.accepts_or_checkSkip {Action : Type} {tree : Obligation Action}
    (valid : tree.Valid) (live : tree.Live) :
    (∃ action, tree.Accepts action) ∨ tree.checkSkip = .ok () := by
  cases final : tree.isFinal with
  | true => exact .inr (checkSkip_of_isFinal valid final)
  | false => exact .inl (exists_accepts valid live final)

variable {Action : Type} [DecidableEq Action]

/-! ### Containers -/

namespace Container

variable {C : Type} [Container C Action]

def play : Obligation.Command Action → C → Except (Stop Action) C
  | .perform action, container => perform action container
  | .skip, container => skip container

/-- A move is offered or a skip is permitted, and some move or skip goes through. -/
structure Playable (container : C) : Prop where
  asked : (∃ first others, possibleActions container = .ok (first :: others)) ∨
    canSkip container = .ok true
  goes : ∃ command next, play command container = .ok next

structure KeptByPlay (holds : C → Prop) : Prop where
  perform : ∀ {action : Action} {container next : C}, holds container →
    Container.perform action container = .ok next → holds next
  skip : ∀ {container next : C}, holds container → Container.skip container = .ok next → holds next

omit [DecidableEq Action] in
theorem KeptByPlay.run {holds : C → Prop} (kept : KeptByPlay holds)
    {commands : List (Obligation.Command Action)} {container reached : C} (here : holds container)
    (ran : applyAll play commands container = .ok reached) : holds reached := by
  refine applyAll_preserves ?_ here ran
  intro command _ before next held played
  cases command with
  | perform action => exact kept.perform held played
  | skip => exact kept.skip held played

omit [DecidableEq Action] in
theorem Decided.playable {container : C} {accepts : Action → Prop} {skippable : Prop}
    (decided : Decided container accepts skippable) (some : (∃ action, accepts action) ∨ skippable) :
    Playable container := by
  rcases some with ⟨action, accepted⟩ | permitted
  · obtain ⟨offered, listed, told⟩ := decided.possibleActions
    have member := (told action).mpr accepted
    obtain ⟨next, performed⟩ := ((decided.perform action).resolve_right (by simp [accepted])).2
    refine ⟨.inl ?_, .perform action, next, performed⟩
    cases offered with
    | nil => cases member
    | cons first others => exact ⟨first, others, listed⟩
  · obtain ⟨next, skipped⟩ := (decided.skip.resolve_right (by simp [permitted])).2
    exact ⟨.inr (decided.canSkip.eq_ok_of_iff (by simp [permitted])), .skip, next, skipped⟩

end Container

/-! ### Stacks -/

namespace Stack

variable {stack : Stack Action}

def Live (stack : Stack Action) : Prop := ∀ tree ∈ stack.obligations, tree.Live

omit [DecidableEq Action] in
theorem Live.front {front : Obligation Action} {rest : List (Obligation Action)} (live : stack.Live)
    (shape : stack.obligations = front :: rest) : front.Live ∧ ∀ tree ∈ rest, tree.Live := by
  rw [Live, shape] at live
  exact List.forall_mem_cons.mp live

theorem perform_live {action : Action} {next : Stack Action} (valid : stack.Valid) (live : stack.Live)
    (performed : stack.perform action = .ok next) : next.Live := by
  rcases perform_cases action valid with
    ⟨_, front, rest, left, shape, resolves, result⟩ | ⟨_, refused⟩
  · cases performed.symm.trans result
    obtain ⟨frontLive, restLive⟩ := live.front shape
    exact settle_forall (resolves.live frontLive) restLive
  · cases performed.symm.trans refused

omit [DecidableEq Action] in
theorem skip_live {next : Stack Action} (valid : stack.Valid) (live : stack.Live)
    (skipped : stack.skip = .ok next) : next.Live := by
  rcases skip_cases valid with ⟨_, front, rest, shape, permitted, result⟩ | ⟨_, _, refused⟩
  · cases skipped.symm.trans result
    obtain ⟨frontLive, restLive⟩ := live.front shape
    exact settle_forall (Obligation.afterSkip_live frontLive permitted) restLive
  · cases skipped.symm.trans refused

theorem live_kept : Container.KeptByPlay fun stack : Stack Action => stack.Valid ∧ stack.Live where
  perform := fun ⟨valid, live⟩ performed =>
    ⟨perform_valid valid performed, perform_live valid live performed⟩
  skip := fun ⟨valid, live⟩ skipped =>
    ⟨(skip_shrinks valid skipped).1, skip_live valid live skipped⟩

theorem playable (valid : stack.Valid) (live : stack.Live)
    (pending : Container.isEmpty stack = false) : Container.Playable stack := by
  refine valid.decided.playable ?_
  cases shape : stack.obligations with
  | nil => simp [Container.isEmpty, Container.length, shape] at pending
  | cons front rest =>
      refine (Obligation.accepts_or_checkSkip (valid.front shape) (live.front shape).1).imp ?_ ?_
      · exact fun ⟨action, accepts⟩ => ⟨action, front, by simp [shape], accepts⟩
      · exact fun permitted => ⟨front, by simp [shape], permitted⟩

end Stack

/-! ### Queues -/

namespace Queue

variable {queue : Queue Action}

def Live (queue : Queue Action) : Prop := ∀ tree ∈ queue.trees, tree.Live

omit [DecidableEq Action] in
theorem dropIdle_live (live : queue.Live) : queue.dropIdle.Live := by
  rw [dropIdle]
  split
  · simp [Live, trees, empty]
  · exact live

theorem perform_live {action : Action} {next : Queue Action} (valid : queue.Valid) (live : queue.Live)
    (performed : queue.perform action = .ok next) : next.Live := by
  rcases perform_cases action valid with
    ⟨_, slot, tree, left, here, resolves, result⟩ | ⟨_, refused⟩
  · cases performed.symm.trans result
    exact settle_forall here live (resolves.live (live tree (mem_trees_of_get? here)))
  · cases performed.symm.trans refused

omit [DecidableEq Action] in
theorem skip_live {next : Queue Action} (valid : queue.Valid) (live : queue.Live)
    (skipped : queue.skip = .ok next) : next.Live := by
  rcases skip_cases valid with
    ⟨_, ⟨slot, tree, here, permitted, result⟩ | ⟨_, result⟩⟩ | ⟨_, _, refused⟩
  · cases skipped.symm.trans result
    have treeLive := live tree (mem_trees_of_get? here)
    have settled : (queue.settle slot tree.afterSkip).Live :=
      settle_forall here live (Obligation.afterSkip_live treeLive permitted)
    exact dropIdle_live settled
  · cases skipped.symm.trans result
    simp [Live, trees, empty]
  · cases skipped.symm.trans refused

theorem live_kept : Container.KeptByPlay fun queue : Queue Action => queue.Valid ∧ queue.Live where
  perform := fun ⟨valid, live⟩ performed =>
    ⟨(perform_valid valid performed).1, perform_live valid live performed⟩
  skip := fun ⟨valid, live⟩ skipped =>
    ⟨(skip_shrinks valid skipped).1, skip_live valid live skipped⟩

omit [DecidableEq Action] in
theorem mem_focus_of_skipTarget {slot : QueueSlot} {tree : Obligation Action}
    (target : queue.skipTarget = some slot) (here : queue.get? slot = some tree) :
    tree ∈ queue.focus := by
  cases current : queue.current with
  | some slot' =>
      simp only [skipTarget, current, Option.some_or, Option.some.injEq] at target
      rw [focus_of_current current (target ▸ here)]
      simp
  | none =>
      rw [focus_of_released current]
      cases order : queue.order with
      | nil => simp [skipTarget, current, front?, order] at target
      | cons front rest =>
          simp only [skipTarget, current, front?, order, List.isEmpty_cons, Option.none_or,
            Bool.false_eq_true, if_false, Option.some.injEq] at target
          subst target
          have same : front = tree := by simpa [get?, order] using here
          simp [same]

theorem playable (valid : queue.Valid) (live : queue.Live)
    (pending : Container.isEmpty queue = false) : Container.Playable queue := by
  refine valid.decided.playable ?_
  rcases skipTarget_cases valid with ⟨slot, tree, target, here⟩ | ⟨target, order⟩
  · have treeLive := live tree (mem_trees_of_get? here)
    refine (Obligation.accepts_or_checkSkip (valid.at here) treeLive).imp ?_ ?_
    · exact fun ⟨action, accepts⟩ => ⟨action, tree, mem_focus_of_skipTarget target here, accepts⟩
    · intro permitted
      rw [Skippable, target]
      exact ⟨tree, here, permitted⟩
  · -- only the pool is left, and it may always be skipped
    right
    rw [Skippable, target]
    intro pool
    simp [Container.isEmpty, Container.length, length, order, pool] at pending

end Queue

/-! ### After loading -/

/-- A saved stack or queue whose templates may all be started can be played on after loading, whatever
is performed and skipped, until nothing is pending. -/
theorem loaded_never_dead [NamedAction Action] :
    (∀ (text : String) (stack reached : Stack Action) (commands : List (Obligation.Command Action)),
      Saved.ofText? text = .ok stack → stack.Live →
      applyAll Container.play commands stack = .ok reached → Container.isEmpty reached = false →
        Container.Playable reached) ∧
    (∀ (text : String) (queue reached : Queue Action) (commands : List (Obligation.Command Action)),
      Saved.ofText? text = .ok queue → queue.Live →
      applyAll Container.play commands queue = .ok reached → Container.isEmpty reached = false →
        Container.Playable reached) := by
  constructor
  · intro text stack reached commands loaded live ran pending
    have valid := stack.validate_eq_ok_iff.mp (Saved.validate_of_check loaded)
    obtain ⟨reachedValid, reachedLive⟩ := Stack.live_kept.run ⟨valid, live⟩ ran
    exact Stack.playable reachedValid reachedLive pending
  · intro text queue reached commands loaded live ran pending
    have valid := queue.validate_eq_ok_iff.mp (Saved.validate_of_check loaded)
    obtain ⟨reachedValid, reachedLive⟩ := Queue.live_kept.run ⟨valid, live⟩ ran
    exact Queue.playable reachedValid reachedLive pending

open Obligation (mandatory freshRepeat freshWhenThen)

theorem loaded_never_dead_halfway :
    (let stack : Stack Scripted.Action := ⟨[freshRepeat 2 2 (mandatory .a)]⟩
     ∃ reached, Saved.ofText? (Storage.toText stack) = .ok stack ∧ stack.Live ∧
      applyAll Container.play [.perform .a] stack = .ok reached ∧
      Container.isEmpty reached = false ∧ Container.Playable reached) ∧
    (let queue : Queue Scripted.Action :=
      ⟨[.optional .c], [freshWhenThen (mandatory .a) (mandatory .b) 0 1], some (.queue 0), by decide⟩
     ∃ reached, Saved.ofText? (Storage.toText queue) = .ok queue ∧ queue.Live ∧
      applyAll Container.play [.perform .a] queue = .ok reached ∧
      Container.isEmpty reached = false ∧ Container.Playable reached) := by
  constructor
  · intro stack
    have loaded : Saved.ofText? (Storage.toText stack) = .ok stack :=
      (Saved.ofText?_gated stack (by decide)).accepted.mpr rfl
    have live : stack.Live := by simp [Stack.Live, stack, freshRepeat, mandatory, Obligation.isFinal]
    exact ⟨_, loaded, live, rfl, rfl, loaded_never_dead.1 _ stack _ [.perform .a] loaded live rfl rfl⟩
  · intro queue
    have loaded : Saved.ofText? (Storage.toText queue) = .ok queue :=
      (Saved.ofText?_gated queue (by decide)).accepted.mpr rfl
    have live : queue.Live := by
      simp [Queue.Live, Queue.trees, queue, freshWhenThen, mandatory, Obligation.optional,
        Obligation.isFinal]
    exact ⟨_, loaded, live, rfl, rfl, loaded_never_dead.2 _ queue _ [.perform .a] loaded live rfl rfl⟩

/-- A `repeat` whose template is done already, and a `whenThen` whose consequence is: no builder makes
them, loading accepts them, and neither a move nor a skip ever gets past them. -/
theorem loads_dead :
    let done : Obligation Scripted.Action := .single .a true true
    let stack : Stack Scripted.Action := ⟨[freshRepeat 1 1 done]⟩
    let queue : Queue Scripted.Action := ⟨[], [freshWhenThen (mandatory .b) done 1 1], none, by decide⟩
    Obligation.buildRepeat 1 1 done = .error (.precondition .repeatTemplate) ∧
    Obligation.buildWhenThen (mandatory .b) done 1 1 = .error (.precondition .whenThenConsequence) ∧
    (Saved.ofText? (Storage.toText stack) = .ok stack ∧ Container.isEmpty stack = false ∧
      Container.possibleActions stack = .ok [] ∧ Container.canSkip stack = .ok false ∧
      ∀ command, (Container.play command stack).isOk = false) ∧
    (∃ reached, Saved.ofText? (Storage.toText queue) = .ok queue ∧
      applyAll Container.play [.perform .b] queue = .ok reached ∧ Container.isEmpty reached = false ∧
      Container.possibleActions reached = .ok [] ∧ Container.canSkip reached = .ok false ∧
      ∀ command, (Container.play command reached).isOk = false) := by
  intro done stack queue
  have stackLoaded : Saved.ofText? (Storage.toText stack) = .ok stack :=
    (Saved.ofText?_gated stack (by decide)).accepted.mpr rfl
  have queueLoaded : Saved.ofText? (Storage.toText queue) = .ok queue :=
    (Saved.ofText?_gated queue (by decide)).accepted.mpr rfl
  refine ⟨rfl, rfl, ⟨stackLoaded, rfl, rfl, rfl, ?_⟩, _, queueLoaded, rfl, rfl, rfl, rfl, ?_⟩
  · rintro (action | _)
    · cases action <;> rfl
    · rfl
  · rintro (action | _)
    · cases action <;> rfl
    · rfl

end TurnObligations
