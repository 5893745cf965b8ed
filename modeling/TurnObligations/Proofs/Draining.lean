import TurnObligations.Obligation.Build
import TurnObligations.Proofs.Queue.Run
import TurnObligations.Proofs.Stack
import TurnObligations.Scripted.Game

/-!
Skipping everything. It always ends, and what comes of it can be told beforehand from the obligations
that have to be forfeited, each asked once.
-/

namespace TurnObligations

variable {Action : Type}

/-! ### Asking every obligation -/

namespace Obligation

def checkSkipEach : List (Obligation Action) → Except (Stop Action) Unit
  | [] => .ok ()
  | tree :: rest => do
      tree.checkSkip
      checkSkipEach rest

theorem checkSkipEach_eq_ok_iff {trees : List (Obligation Action)} :
    checkSkipEach trees = .ok () ↔ ∀ tree ∈ trees, tree.checkSkip = .ok () := by
  induction trees with
  | nil => simp [checkSkipEach]
  | cons tree rest ih => simp [checkSkipEach, bind_unit_eq_ok, ih]

theorem checkSkipEach_append (front rest : List (Obligation Action)) :
    checkSkipEach (front ++ rest) = checkSkipEach front >>= fun _ => checkSkipEach rest := by
  induction front with
  | nil => rfl
  | cons tree front ih =>
      rw [List.cons_append, checkSkipEach, checkSkipEach, ih]
      cases tree.checkSkip <;> rfl

theorem checkSkipEach_of_refusal {before after : List (Obligation Action)} {tree : Obligation Action}
    {stop : Stop Action} (permitted : ∀ earlier ∈ before, earlier.checkSkip = .ok ())
    (refused : tree.checkSkip = .error stop) :
    checkSkipEach (before ++ tree :: after) = .error stop := by
  rw [checkSkipEach_append, checkSkipEach_eq_ok_iff.mpr permitted, ok_bind, checkSkipEach, refused]
  rfl

theorem exists_refusal {trees : List (Obligation Action)}
    (refused : ¬∀ tree ∈ trees, tree.checkSkip = .ok ()) :
    ∃ before tree after stop, trees = before ++ tree :: after ∧
      (∀ earlier ∈ before, earlier.checkSkip = .ok ()) ∧ tree.checkSkip = .error stop := by
  induction trees with
  | nil => simp at refused
  | cons first rest ih =>
      cases checked : first.checkSkip with
      | error stop => exact ⟨[], first, rest, stop, rfl, by simp, checked⟩
      | ok =>
          obtain ⟨before, tree, after, stop, rfl, permitted, found⟩ :=
            ih (by simpa [checked] using refused)
          exact ⟨first :: before, tree, after, stop, rfl, by simpa [checked] using permitted, found⟩

theorem checkSkipEach_stillOpen {tree : Obligation Action} (valid : tree.Valid)
    (permitted : tree.checkSkip = .ok ()) :
    checkSkipEach (stillOpen tree.afterSkip).toList = .ok () := by
  rw [checkSkipEach_eq_ok_iff]
  intro part member
  obtain ⟨unresolved, rfl⟩ := stillOpen_eq_some.mp (Option.mem_toList.mp member)
  exact ((afterSkip_closes valid permitted).resolve_left (by simp [unresolved])).1

end Obligation

/-! ### Skipping over and over -/

namespace Container

open Obligation (checkSkipEach stillOpen)

variable {C : Type} [Container C Action]

/-- Skipping again and again has come to an end, with nothing pending or at a skip that is stopped. -/
inductive Drains : C → Except (Stop Action) C → Prop
  | done {container : C} (nothing : isEmpty container = true) : Drains container (.ok container)
  | stopped {container : C} {stop : Stop Action} (pending : isEmpty container = false)
      (failed : skip container = .error stop) : Drains container (.error stop)
  | again {container next : C} {result : Except (Stop Action) C}
      (pending : isEmpty container = false) (skipped : skip container = .ok next)
      (onward : Drains next result) : Drains container result

theorem Drains.unique {container : C} {result result' : Except (Stop Action) C}
    (drains : Drains container result) (drains' : Drains container result') : result = result' := by
  induction drains with
  | done nothing =>
      cases drains' with
      | done => rfl
      | stopped pending => simp [nothing] at pending
      | again pending => simp [nothing] at pending
  | stopped pending failed =>
      cases drains' with
      | done nothing => simp [nothing] at pending
      | stopped _ failed' => exact congrArg Except.error (Except.error.inj (failed.symm.trans failed'))
      | again _ skipped => cases failed.symm.trans skipped
  | again pending skipped _ ih =>
      cases drains' with
      | done nothing => simp [nothing] at pending
      | stopped _ failed => cases skipped.symm.trans failed
      | again _ skipped' onward => exact ih (Except.ok.inj (skipped.symm.trans skipped') ▸ onward)

theorem drains_of_faultless {fuel : Nat} {container : C}
    (ends : Faultless (skipUntilEmpty isEmpty skip fuel container)) :
    Drains container (skipUntilEmpty isEmpty skip fuel container) := by
  induction fuel generalizing container with
  | zero =>
      rw [skipUntilEmpty] at ends ⊢
      split
      · next nothing => exact .done nothing
      · next pending => exact absurd (if_neg pending) (ends .endlessSkip)
  | succ fuel ih =>
      rw [skipUntilEmpty] at ends ⊢
      cases pending : isEmpty container with
      | true => exact .done pending
      | false =>
          simp only [pending, Bool.false_eq_true, if_false] at ends ⊢
          cases skipped : skip container with
          | error stop => exact .stopped pending skipped
          | ok next =>
              rw [skipped, ok_bind] at ends
              exact .again pending skipped (ih ends)

/-- Skips take the obligations front first, whatever else the container holds: `holds` relates it to
those still to be taken. -/
structure TakesInOrder (holds : C → List (Obligation Action) → Prop) (emptied : C) : Prop where
  idle : ∀ container, holds container [] → Drains container (.ok emptied)
  pending : ∀ container tree rest, holds container (tree :: rest) → isEmpty container = false
  stops : ∀ container tree rest stop, holds container (tree :: rest) →
    tree.checkSkip = .error stop → skip container = .error stop
  forfeits : ∀ container tree rest, holds container (tree :: rest) → tree.checkSkip = .ok () →
    ∃ next, skip container = .ok next ∧ holds next ((stillOpen tree.afterSkip).toList ++ rest)

theorem TakesInOrder.drains {holds : C → List (Obligation Action) → Prop} {emptied container : C}
    (takes : TakesInOrder holds emptied) {trees : List (Obligation Action)}
    (valid : ∀ tree ∈ trees, tree.Valid) (held : holds container trees) :
    Drains container ((checkSkipEach trees).map fun _ => emptied) := by
  induction trees generalizing container with
  | nil => exact takes.idle container held
  | cons tree rest ih =>
      have pending := takes.pending container tree rest held
      rw [checkSkipEach]
      cases checked : tree.checkSkip with
      | error stop => exact .stopped pending (takes.stops container tree rest stop held checked)
      | ok =>
          rw [ok_bind]
          obtain ⟨next, skipped, left⟩ := takes.forfeits container tree rest held checked
          refine .again pending skipped ?_
          have treeValid := valid tree (by simp)
          have restValid : ∀ other ∈ rest, other.Valid :=
            fun other member => valid other (by simp [member])
          cases final : tree.afterSkip.isFinal with
          | true =>
              rw [Obligation.stillOpen_final final] at left
              exact ih restValid left
          | false =>
              -- what survives the first skip goes with the second
              rw [Obligation.stillOpen_open final] at left
              obtain ⟨again, closed⟩ :=
                (Obligation.afterSkip_closes treeValid checked).resolve_left (by simp [final])
              obtain ⟨last, skippedAgain, gone⟩ := takes.forfeits next _ rest left again
              rw [Obligation.stillOpen_final closed] at gone
              exact .again (takes.pending next _ rest left) skippedAgain (ih restValid gone)

/-- Skipping everything ends, and the obligations `asked` settle how: each is asked, in this order,
whether it may be skipped as it stands, and the first refusal is the answer. -/
structure SettledBy (asked : List (Obligation Action)) (emptied container : C) : Prop where
  ends : Drains container (skipAll container)
  empties : skipAll container = .ok emptied ↔ ∀ tree ∈ asked, tree.checkSkip = .ok ()
  refuses : (¬∀ tree ∈ asked, tree.checkSkip = .ok ()) →
    ∃ before tree after refusal, asked = before ++ tree :: after ∧
      (∀ earlier ∈ before, earlier.checkSkip = .ok ()) ∧
      tree.checkSkip = .error (.refused refusal) ∧
      skipAll container = .error (.refused refusal)

theorem settledBy_of_drains {asked : List (Obligation Action)} {emptied container : C}
    (valid : ∀ tree ∈ asked, tree.Valid) (ends : Drains container (skipAll container))
    (drains : Drains container ((checkSkipEach asked).map fun _ => emptied)) :
    SettledBy asked emptied container where
  ends := ends
  empties := by
    rw [ends.unique drains, map_eq_ok, ← Obligation.checkSkipEach_eq_ok_iff]
    exact ⟨fun ⟨_, asked, _⟩ => asked, fun asked => ⟨(), asked, rfl⟩⟩
  refuses refused := by
    obtain ⟨before, tree, after, stop, rfl, permitted, found⟩ := Obligation.exists_refusal refused
    have answer : skipAll container = .error stop := by
      rw [ends.unique drains, Obligation.checkSkipEach_of_refusal permitted found]
      rfl
    cases stop with
    | faulted fault =>
        exact absurd found (Obligation.checkSkip_faultless (valid tree (by simp)) fault)
    | refused refusal =>
        exact ⟨before, tree, after, refusal, rfl, permitted, found, answer⟩

end Container

/-! ### Stacks -/

namespace Stack

open Container (Drains TakesInOrder)

variable [DecidableEq Action] {stack : Stack Action}

theorem skipAll_drains (valid : stack.Valid) : Drains stack stack.skipAll := by
  have same : (isEmpty : Stack Action → Bool) = Container.isEmpty := by
    funext stack
    obtain ⟨obligations⟩ := stack
    cases obligations <;> rfl
  have ends := skipAll_faultless valid
  rw [skipAll, same] at ends ⊢
  exact Container.drains_of_faultless ends

theorem takesInOrder :
    TakesInOrder (fun (stack : Stack Action) trees => stack.obligations = trees) empty where
  idle stack held := by
    obtain ⟨obligations⟩ := stack
    subst held
    exact .done rfl
  pending stack tree rest held := by simp [Container.isEmpty, Container.length, held]
  stops stack tree rest stop held refused := by
    show stack.skip = .error stop
    simp only [skip, held]
    rw [Obligation.skip_eq_error_iff.mpr refused]
    rfl
  forfeits stack tree rest held permitted := by
    refine ⟨settle tree.afterSkip rest, ?_, settle_obligations _ rest⟩
    show stack.skip = .ok _
    simp only [skip, held]
    rw [Obligation.skip_eq_ok_iff.mpr ⟨permitted, rfl⟩]
    rfl

theorem skipAll_settled (valid : stack.Valid) :
    Container.SettledBy stack.obligations empty stack :=
  Container.settledBy_of_drains valid (skipAll_drains valid) (takesInOrder.drains valid rfl)

end Stack

/-! ### Queues -/

namespace Queue

open Container (Drains TakesInOrder)
open Obligation (checkSkipEach checkSkipEach_append checkSkipEach_stillOpen stillOpen)

variable [DecidableEq Action] {queue : Queue Action}

theorem skipAll_drains (valid : queue.Valid) : Drains queue queue.skipAll :=
  Container.drains_of_faultless (skipAll_faultless valid)

omit [DecidableEq Action] in
theorem dropIdle_order (queue : Queue Action) : queue.dropIdle.order = queue.order := by
  rw [dropIdle]
  split
  · next idle => exact (List.isEmpty_iff.mp idle).symm
  · rfl

omit [DecidableEq Action] in
theorem dropIdle_released (released : queue.current = none) : queue.dropIdle.current = none := by
  rw [dropIdle]
  split
  · rfl
  · exact released

omit [DecidableEq Action] in
theorem skip_stops {slot : QueueSlot} {tree : Obligation Action} {stop : Stop Action}
    (target : queue.skipTarget = some slot) (here : queue.get? slot = some tree)
    (refused : tree.checkSkip = .error stop) : queue.skip = .error stop := by
  simp only [skip, target, here]
  rw [Obligation.skip_eq_error_iff.mpr refused]
  rfl

omit [DecidableEq Action] in
theorem skip_forfeits {slot : QueueSlot} {tree : Obligation Action}
    (target : queue.skipTarget = some slot) (here : queue.get? slot = some tree)
    (permitted : tree.checkSkip = .ok ()) :
    ∃ next, queue.skip = .ok next ∧ next.current = none ∧
      next.order = (queue.settle slot tree.afterSkip).order := by
  refine ⟨((queue.settle slot tree.afterSkip).release).dropIdle, ?_, dropIdle_released rfl,
    dropIdle_order _⟩
  simp only [skip, target, here]
  rw [Obligation.skip_eq_ok_iff.mpr ⟨permitted, rfl⟩]
  rfl

omit [DecidableEq Action] in
theorem settle_queue_order {index : UInt64} {before after : List (Obligation Action)}
    {tree : Obligation Action} (shape : queue.order = before ++ tree :: after)
    (place : index.toNat = before.length) (next : Obligation Action) :
    (queue.settle (.queue index) next).order = before ++ ((stillOpen next).toList ++ after) := by
  rw [settle]
  cases final : next.isFinal with
  | true => simp [shape, place, stillOpen, final, List.eraseIdx_append_of_length_le]
  | false => simp [shape, place, stillOpen, final]

omit [DecidableEq Action] in
theorem settle_anyTime_order (index : UInt64) (next : Obligation Action) :
    (queue.settle (.anyTime index) next).order = queue.order := by
  rw [settle]
  split <;> rfl

omit [DecidableEq Action] in
theorem front_of_order {tree : Obligation Action} {rest : List (Obligation Action)}
    (released : queue.current = none) (order : queue.order = tree :: rest) :
    queue.skipTarget = some (.queue 0) ∧ queue.get? (.queue 0) = some tree := by
  simp [skipTarget, released, front?, order, get?]

theorem takesInOrder :
    TakesInOrder (fun (queue : Queue Action) trees => queue.current = none ∧ queue.order = trees)
      empty where
  idle queue held := by
    obtain ⟨released, order⟩ := held
    obtain ⟨pool, _, _, room⟩ := queue
    subst released order
    cases pool with
    | nil => exact .done rfl
    | cons first rest => exact .again rfl rfl (.done rfl)
  pending queue tree rest held := by
    simp [Container.isEmpty, Container.length, length, held.2]
  stops queue tree rest stop held refused := by
    obtain ⟨target, here⟩ := front_of_order held.1 held.2
    exact skip_stops target here refused
  forfeits queue tree rest held permitted := by
    obtain ⟨target, here⟩ := front_of_order held.1 held.2
    obtain ⟨next, skipped, released, order⟩ := skip_forfeits target here permitted
    refine ⟨next, skipped, released, order.trans ?_⟩
    have front : queue.order = [] ++ tree :: rest := held.2
    exact settle_queue_order front rfl tree.afterSkip

/-- The obligation in progress comes first; it may come again in the order, and then refuses nothing. -/
theorem drains_current {slot : QueueSlot} {tree : Obligation Action} (valid : queue.Valid)
    (current : queue.current = some slot) (here : queue.get? slot = some tree) :
    Drains queue ((checkSkipEach (tree :: queue.order)).map fun _ => empty) := by
  have target : queue.skipTarget = some slot := by simp [skipTarget, current]
  have pending : Container.isEmpty queue = false := by
    have some : 0 < queue.trees.length := List.length_pos_of_mem (mem_trees_of_get? here)
    rw [length_trees] at some
    simp only [Container.isEmpty, Container.length, beq_eq_false_iff_ne]
    omega
  rw [checkSkipEach]
  cases checked : tree.checkSkip with
  | error stop => exact .stopped pending (skip_stops target here checked)
  | ok =>
      rw [ok_bind]
      obtain ⟨next, skipped, released, order⟩ := skip_forfeits target here checked
      have nextValid := (skip_shrinks valid skipped).1
      have onward : Drains next ((checkSkipEach next.order).map fun _ => empty) :=
        takesInOrder.drains (fun other member => nextValid.trees other (List.mem_append_right _ member))
          ⟨released, rfl⟩
      have same : checkSkipEach next.order = checkSkipEach queue.order := by
        rw [order]
        cases slot with
        | anyTime index => rw [settle_anyTime_order]
        | queue index =>
            obtain ⟨before, after, shape, place⟩ := exists_split_of_getElem? here
            rw [settle_queue_order shape place, shape]
            simp only [checkSkipEach_append, checkSkipEach_stillOpen (valid.at here) checked,
              checkSkipEach, checked, ok_bind]
      exact .again pending skipped (same ▸ onward)

theorem skipAll_settled (valid : queue.Valid) :
    Container.SettledBy (queue.current?.toList ++ queue.order) empty queue := by
  have ordered : ∀ tree ∈ queue.order, tree.Valid :=
    fun tree member => valid.trees tree (List.mem_append_right _ member)
  cases current : queue.current with
  | none =>
      have released : queue.current? = none := by simp [current?, current]
      rw [released]
      exact Container.settledBy_of_drains ordered (skipAll_drains valid)
        (takesInOrder.drains ordered ⟨current, rfl⟩)
  | some slot =>
      obtain ⟨tree, here, _⟩ := valid.slot slot current
      have inProgress : queue.current? = some tree := by simp [current?, current, here]
      rw [inProgress]
      refine Container.settledBy_of_drains ?_ (skipAll_drains valid) (drains_current valid current here)
      exact List.forall_mem_cons.mpr ⟨valid.at here, ordered⟩

end Queue

/-- On every valid stack skipping everything ends, and its obligations, front first, settle how. On
every valid queue the obligation in progress is asked first and then the order; no other obligation of
the pool matters. A refusal leaves the container as it was, as `attempt_of_refused` says of any command. -/
theorem skipAll_settled_by_pending [DecidableEq Action] :
    (∀ stack : Stack Action, stack.validate = .ok () →
      Container.SettledBy stack.obligations Stack.empty stack) ∧
    (∀ queue : Queue Action, queue.validate = .ok () →
      Container.SettledBy (queue.current?.toList ++ queue.order) Queue.empty queue) := by
  constructor
  · intro stack valid
    exact Stack.skipAll_settled (stack.validate_eq_ok_iff.mp valid)
  · intro queue valid
    exact Queue.skipAll_settled (queue.validate_eq_ok_iff.mp valid)

open Obligation (freshRepeat mandatory optional) in
theorem skipAll_settled_by_pending_surviving :
    (let stack : Stack Scripted.Action :=
      ⟨[.any [freshRepeat 0 2 (mandatory .a), mandatory .b] (some 0), mandatory .c]⟩
     stack.validate = .ok () ∧ Container.SettledBy stack.obligations Stack.empty stack ∧
      stack.skipAll = .error (.refused .cannotSkip)) ∧
    (let queue : Queue Scripted.Action :=
      ⟨[mandatory .a, .any [freshRepeat 0 2 (mandatory .b), mandatory .c] (some 0)], [optional .d],
        some (.anyTime 1), by decide⟩
     queue.validate = .ok () ∧
      Container.SettledBy (queue.current?.toList ++ queue.order) Queue.empty queue ∧
      queue.skipAll = .ok Queue.empty) :=
  ⟨⟨rfl, skipAll_settled_by_pending.1 _ rfl, rfl⟩, rfl, skipAll_settled_by_pending.2 _ rfl, rfl⟩

end TurnObligations
