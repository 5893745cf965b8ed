import TurnObligations.Obligation.Build
import TurnObligations.Proofs.Queue.Run
import TurnObligations.Proofs.Stack
import TurnObligations.Scripted.Game

/-!
Pushing in parts. What is pushed last stands foremost, so two lists that are pushed as one may also be
pushed one by one, the second before the first. Whatever is pending stays as it is meanwhile.
-/

namespace TurnObligations

variable {Action : Type}

namespace Counter

theorem advance_zero (index : UInt64) : advance index 0 = .ok index := by
  rw [advance, Nat.add_zero, if_pos index.toNat_lt_size, UInt64.ofNat_toNat]

theorem advance_add (index : UInt64) (count more : Nat) :
    advance index (count + more) = advance index more >>= fun next => advance next count := by
  cases stepped : advance index more with
  | error fault =>
      simp only [advance] at stepped ⊢
      split at stepped
      · cases stepped
      · cases stepped
        rw [if_neg (by omega)]
        rfl
  | ok next =>
      have place := toNat_of_advance stepped
      rw [ok_bind, advance, advance, place, Nat.add_assoc, Nat.add_comm more]

end Counter

namespace Container

/-- Pushing nothing changes nothing, and a list may be pushed in two parts, the part behind first. -/
class LawfulPush (C : Type) {Action : outParam Type} [Container C Action] : Prop where
  push_nil (container : C) : push [] container = .ok container
  push_append (front behind : List (Obligation Action)) (container : C) :
    push (front ++ behind) container = push behind container >>= push front

open LawfulPush (push_nil push_append)

variable {C : Type} [Container C Action] [LawfulPush C]

theorem pushOutcome_eq_push (outcome : Outcome Action) (container : C) :
    pushOutcome outcome container = push outcome.followUps container := by
  rw [pushOutcome_eq]
  split
  · next none => rw [none, push_nil]
  · rfl

theorem pushOutcome_andThen (first second : Outcome Action) (container : C) :
    pushOutcome (first.andThen second) container =
      pushOutcome second container >>= pushOutcome first := by
  rw [pushOutcome_eq_push, pushOutcome_eq_push, Outcome.andThen, push_append]
  exact congrArg _ (funext fun reached => (pushOutcome_eq_push first reached).symm)

end Container

section Containers

variable [DecidableEq Action]

instance : Container.LawfulPush (Stack Action) where
  push_nil _ := rfl
  push_append front behind stack := congrArg Except.ok (stack.push_append front behind)

namespace Queue

theorem shift_zero (slot : Option QueueSlot) : shift 0 slot = .ok slot := by
  match slot with
  | none => rfl
  | some (.anyTime index) => rfl
  | some (.queue index) => rw [shift, Counter.advance_zero]; rfl

theorem shift_add (count more : Nat) (slot : Option QueueSlot) :
    shift (count + more) slot = shift more slot >>= shift count := by
  match slot with
  | none => rfl
  | some (.anyTime index) => rfl
  | some (.queue index) =>
      simp only [shift, Counter.advance_add]
      cases Counter.advance index more <;> rfl

instance : Container.LawfulPush (Queue Action) where
  push_nil queue := by
    show queue.push [] = _
    rw [push_eq, List.filter_nil, List.length_nil, shift_zero]
    rfl
  push_append front behind queue := by
    show queue.push (front ++ behind) = queue.push behind >>= push front
    rw [push_eq, push_eq, List.filter_append, List.length_append, shift_add]
    cases shift _ queue.current with
    | error _ => rfl
    | ok slot => simp only [Except.map, ok_bind, push_eq, List.append_assoc]

omit [DecidableEq Action] in
theorem push_keeps {pushed : List (Obligation Action)} {queue next : Queue Action}
    (done : queue.push pushed = .ok next) :
    next.order = (pushed.filter fun tree => !tree.isFinal) ++ queue.order ∧
      next.anyTime = queue.anyTime ∧ next.current? = queue.current? := by
  obtain ⟨shifted, moved, rfl⟩ := push_eq_ok_iff.mp done
  refine ⟨rfl, rfl, ?_⟩
  cases shifted with
  | none =>
      rcases shift_cases moved with ⟨_, _, _, held, _⟩ | ⟨_, same⟩
      · cases held
      · simp only [current?, ← same, Option.bind_none]
  | some slot' =>
      obtain ⟨slot, current, same⟩ := get?_of_shift moved slot' rfl
      rw [Option.mem_def] at current
      simp only [current?, current, Option.bind_some]
      exact same

end Queue

/-- On a stack and on a queue, pushing two lists as one is pushing the second and then the first, failures
included, and likewise for what follows from two moves. The pending obligations come after the open ones
of the list, in the order they had; the pool and the obligation in progress are the same as before. A
queue whose slot in progress is in range takes every push that there is memory for. -/
theorem push_composes :
    (∀ stack : Stack Action,
      (∀ front behind, Container.push (front ++ behind) stack =
        (Container.push behind stack >>= Container.push front)) ∧
      (∀ first second : Outcome Action, Container.pushOutcome (first.andThen second) stack =
        (Container.pushOutcome second stack >>= Container.pushOutcome first)) ∧
      ∀ pushed, ∃ next, Container.push pushed stack = .ok next ∧
        next.obligations = (pushed.filter fun tree => !tree.isFinal) ++ stack.obligations) ∧
    (∀ queue : Queue Action,
      (∀ front behind, Container.push (front ++ behind) queue =
        (Container.push behind queue >>= Container.push front)) ∧
      (∀ first second : Outcome Action, Container.pushOutcome (first.andThen second) queue =
        (Container.pushOutcome second queue >>= Container.pushOutcome first)) ∧
      (∀ pushed next, Container.push pushed queue = .ok next →
        next.order = (pushed.filter fun tree => !tree.isFinal) ++ queue.order ∧
        next.anyTime = queue.anyTime ∧ next.current? = queue.current?) ∧
      ∀ pushed, (∀ slot ∈ queue.current, ∃ tree, queue.get? slot = some tree) →
        ((pushed.filter fun tree => !tree.isFinal) ++ queue.order).length ≤ Obligation.capacity →
        ∃ next, Container.push pushed queue = .ok next) := by
  refine ⟨fun stack => ⟨?_, ?_, ?_⟩, fun queue => ⟨?_, ?_, ?_, ?_⟩⟩
  · exact fun front behind => Container.LawfulPush.push_append front behind stack
  · exact fun first second => Container.pushOutcome_andThen first second stack
  · exact fun pushed => ⟨_, rfl, stack.push_obligations pushed⟩
  · exact fun front behind => Container.LawfulPush.push_append front behind queue
  · exact fun first second => Container.pushOutcome_andThen first second queue
  · exact fun _ _ done => Queue.push_keeps done
  · exact fun _ inRange fits => Queue.push_returns inRange fits

end Containers

open Obligation (freshRepeat mandatory optional) in
theorem push_composes_before_current :
    let queue : Queue Scripted.Action :=
      ⟨[optional .c], [freshRepeat 2 2 (mandatory .a), mandatory .b], some (.queue 0), by decide⟩
    let pushed : List (Obligation Scripted.Action) := [mandatory .a, .single .b true true, mandatory .c]
    (∀ slot ∈ queue.current, ∃ tree, queue.get? slot = some tree) ∧
      ((pushed.filter fun tree => !tree.isFinal) ++ queue.order).length ≤ Obligation.capacity ∧
      ∃ next, Container.push pushed queue = .ok next ∧ next.current = some (.queue 2) ∧
        next.order = [mandatory .a, mandatory .c] ++ queue.order ∧ next.anyTime = queue.anyTime ∧
        next.current? = queue.current? := by
  intro queue pushed
  have inRange : ∀ slot ∈ queue.current, ∃ tree, queue.get? slot = some tree := by
    intro slot current
    cases current
    exact ⟨_, rfl⟩
  have fits : ((pushed.filter fun tree => !tree.isFinal) ++ queue.order).length ≤
      Obligation.capacity := by decide
  obtain ⟨_, _, shape, returns⟩ := push_composes.2 queue
  obtain ⟨next, done⟩ := returns pushed inRange fits
  obtain ⟨order, pool, current⟩ := shape pushed next done
  refine ⟨inRange, fits, next, done, ?_, order, pool, current⟩
  cases done
  rfl

end TurnObligations
