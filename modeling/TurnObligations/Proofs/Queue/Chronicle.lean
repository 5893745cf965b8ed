import TurnObligations.Obligation.Build
import TurnObligations.Proofs.Queue.Deeds
import TurnObligations.Proofs.Queue.Run
import TurnObligations.Scripted.Game

/-!
Every run of calls on a queue has a chronicle: deeds that the ledger allows, and after each call the
ledger describes the queue, slot in progress included.
-/

namespace TurnObligations.Queue

open Obligation (stillOpen)

variable {Action : Type}

def Ledger.at? (ledger : Ledger Action) : QueueSlot → Option (Held Action)
  | .anyTime index => ledger.pool[index.toNat]?
  | .queue index => ledger.order[index.toNat]?

/-- The queue holds the trees of the ledger in the same places, and its slot points at what the ledger
has in progress. -/
structure Ledger.Describes (ledger : Ledger Action) (queue : Queue Action) : Prop where
  pool : queue.anyTime = ledger.pool.map Held.tree
  order : queue.order = ledger.order.map Held.tree
  slot : ∀ slot ∈ queue.current, ∃ entry, ledger.at? slot = some entry ∧
    ledger.current = some entry.label
  rest : queue.current = none → ledger.current = none

namespace Ledger

variable {ledger : Ledger Action} {queue : Queue Action}

theorem Describes.of_released (pool : queue.anyTime = ledger.pool.map Held.tree)
    (order : queue.order = ledger.order.map Held.tree) (released : queue.current = none)
    (rest : ledger.current = none) : ledger.Describes queue :=
  ⟨pool, order, by simp [released], fun _ => rest⟩

theorem Describes.of_current {slot : QueueSlot} {entry : Held Action}
    (pool : queue.anyTime = ledger.pool.map Held.tree)
    (order : queue.order = ledger.order.map Held.tree) (current : queue.current = some slot)
    (here : ledger.at? slot = some entry) (progress : ledger.current = some entry.label) :
    ledger.Describes queue :=
  ⟨pool, order, by simp [current, here, progress], by simp [current]⟩

theorem empty_describes : (empty : Ledger Action).Describes Queue.empty :=
  .of_released rfl rfl rfl rfl

theorem mem_held_of_at? {slot : QueueSlot} {entry : Held Action} (here : ledger.at? slot = some entry) :
    entry ∈ ledger.held := by
  cases slot with
  | anyTime index => exact List.mem_append_left _ (List.mem_of_getElem? here)
  | queue index => exact List.mem_append_right _ (List.mem_of_getElem? here)

namespace Describes

theorem get? (describes : ledger.Describes queue) (slot : QueueSlot) :
    queue.get? slot = (ledger.at? slot).map Held.tree := by
  cases slot with
  | anyTime index => rw [Queue.get?, describes.pool, List.getElem?_map]; rfl
  | queue index => rw [Queue.get?, describes.order, List.getElem?_map]; rfl

theorem trees (describes : ledger.Describes queue) : queue.trees = ledger.held.map Held.tree := by
  rw [Queue.trees, held, List.map_append, describes.pool, describes.order]

theorem exists_entry (describes : ledger.Describes queue) {slot : QueueSlot} {tree : Obligation Action}
    (here : queue.get? slot = some tree) : ∃ entry, ledger.at? slot = some entry ∧ entry.tree = tree := by
  rw [describes.get?] at here
  exact Option.map_eq_some_iff.mp here

theorem current_of_slot (describes : ledger.Describes queue) {slot : QueueSlot} {entry : Held Action}
    (current : queue.current = some slot) (here : ledger.at? slot = some entry) :
    ledger.current = some entry.label := by
  obtain ⟨entry', here', progress⟩ := describes.slot slot current
  cases here.symm.trans here'
  exact progress

theorem release (describes : ledger.Describes queue) : ledger.release.Describes queue.release :=
  .of_released describes.pool describes.order rfl rfl

theorem dropIdle (describes : ledger.Describes queue) (released : queue.current = none) :
    ledger.lapse.Describes queue.dropIdle := by
  have same : queue.order.isEmpty = ledger.order.isEmpty := by
    rw [describes.order]
    cases ledger.order <;> rfl
  rw [lapse, Queue.dropIdle, same]
  split
  · next idle =>
      have none : ledger.order = [] := List.isEmpty_iff.mp idle
      exact .of_released rfl (by rw [none]; rfl) rfl (describes.rest released)
  · exact describes

theorem push (describes : ledger.Describes queue) {trees : List (Obligation Action)}
    {next : Queue Action} (done : queue.push trees = .ok next) :
    (ledger.record (.pushed trees)).Describes next := by
  obtain ⟨shifted, moved, rfl⟩ := push_eq_ok_iff.mp done
  rw [record]
  generalize trees.filter (fun tree => !tree.isFinal) = live at moved ⊢
  refine ⟨describes.pool, by simp [describes.order], ?_, ?_⟩
  · intro slot' member
    rcases shift_cases moved with ⟨index, advanced, current, rfl, place⟩ | ⟨pooled, rfl⟩
    · cases member
      obtain ⟨entry, here, progress⟩ := describes.slot _ current
      refine ⟨entry, ?_, progress⟩
      have behind : (labelled ledger.used live).length ≤ advanced.toNat := by
        rw [length_labelled]
        omega
      rw [at?, List.getElem?_append_right behind, length_labelled, place, Nat.add_sub_cancel]
      exact here
    · obtain ⟨entry, here, progress⟩ := describes.slot slot' member
      cases slot' with
      | anyTime index => exact ⟨entry, here, progress⟩
      | queue index => exact absurd member (pooled index)
  · intro none
    refine describes.rest ?_
    rcases shift_cases moved with ⟨_, _, _, rfl, _⟩ | ⟨_, rfl⟩
    · cases none
    · exact none

theorem pushAnyTime (describes : ledger.Describes queue) {tree : Obligation Action}
    {next : Queue Action} (done : queue.pushAnyTime tree = .ok next) :
    (ledger.record (.pooled tree)).Describes next := by
  rw [Queue.pushAnyTime] at done
  rw [record]
  split
  · next final =>
      rw [if_pos final] at done
      exact Except.ok.inj done ▸ describes
  · next unresolved =>
      rw [if_neg unresolved] at done
      split at done
      · cases done
        refine ⟨by simp [describes.pool], describes.order, ?_, describes.rest⟩
        intro slot member
        obtain ⟨entry, here, progress⟩ := describes.slot slot member
        refine ⟨entry, ?_, progress⟩
        cases slot with
        | anyTime index =>
            have bound := (List.getElem?_eq_some_iff.mp here).1
            exact (List.getElem?_append_left bound).trans here
        | queue index => exact here
      · cases done

end Describes

/-! ### What is held at a slot -/

theorem revise_at {held : List (Held Action)} {index : Nat} {entry : Held Action}
    (distinct : (labels held).Nodup) (here : held[index]? = some entry) (next : Obligation Action) :
    ∃ before after, held = before ++ entry :: after ∧ index = before.length ∧
      revise entry.label next held =
        before ++ ((stillOpen next).toList.map (Held.mk entry.label) ++ after) := by
  obtain ⟨before, after, rfl, place⟩ := exists_split_of_getElem? here
  rw [labels_append] at distinct
  obtain ⟨_, behind, apart⟩ := List.nodup_append.mp distinct
  have earlier : entry.label ∉ labels before := fun member =>
    apart entry.label member entry.label (by simp [labels]) rfl
  have later : entry.label ∉ labels after := (List.nodup_cons.mp behind).1
  exact ⟨before, after, rfl, place, revise_split next earlier later⟩

theorem revise_at_final {held : List (Held Action)} {index : Nat} {entry : Held Action}
    {next : Obligation Action} (distinct : (labels held).Nodup) (here : held[index]? = some entry)
    (final : next.isFinal = true) :
    (revise entry.label next held).map Held.tree = (held.map Held.tree).eraseIdx index := by
  obtain ⟨before, after, shape, place, revised⟩ := revise_at distinct here next
  rw [revised, shape, place]
  simp [stillOpen, final, List.eraseIdx_append_of_length_le]

theorem revise_at_open {held : List (Held Action)} {index : Nat} {entry : Held Action}
    {next : Obligation Action} (distinct : (labels held).Nodup) (here : held[index]? = some entry)
    (unresolved : next.isFinal = false) :
    (revise entry.label next held).map Held.tree = (held.map Held.tree).set index next ∧
      (revise entry.label next held)[index]? = some ⟨entry.label, next⟩ := by
  obtain ⟨before, after, shape, place, revised⟩ := revise_at distinct here next
  rw [revised, shape, place]
  simp [stillOpen, unresolved]

theorem Tidy.pool_distinct (tidy : ledger.Tidy) : (labels ledger.pool).Nodup :=
  tidy.pool.imp Nat.ne_of_lt

theorem Tidy.order_distinct (tidy : ledger.Tidy) : (labels ledger.order).Nodup :=
  tidy.order.imp Nat.ne_of_gt

theorem Describes.settle (describes : ledger.Describes queue) (tidy : ledger.Tidy) {slot : QueueSlot}
    {entry : Held Action} (here : ledger.at? slot = some entry) (next : Obligation Action) :
    (ledger.amend entry.label next).Describes (queue.settle slot next) := by
  cases slot with
  | anyTime index =>
      have named : entry.label ∈ labels ledger.pool := List.mem_map_of_mem (List.mem_of_getElem? here)
      have order : revise entry.label next ledger.order = ledger.order :=
        revise_of_absent next (tidy.apart _ named)
      rw [Queue.settle]
      cases final : next.isFinal with
      | true =>
          have erased := revise_at_final tidy.pool_distinct here final
          exact .of_released (by simp [amend, describes.pool, erased])
            (by simp [amend, describes.order, order]) rfl (amend_current final)
      | false =>
          obtain ⟨replaced, stands⟩ := revise_at_open tidy.pool_distinct here final
          exact .of_current (by simp [amend, describes.pool, replaced])
            (by simp [amend, describes.order, order]) rfl stands (amend_current_of_open final)
  | queue index =>
      have named : entry.label ∈ labels ledger.order := List.mem_map_of_mem (List.mem_of_getElem? here)
      have pool : revise entry.label next ledger.pool = ledger.pool :=
        revise_of_absent next fun pooled => tidy.apart _ pooled named
      rw [Queue.settle]
      cases final : next.isFinal with
      | true =>
          have erased := revise_at_final tidy.order_distinct here final
          exact .of_released (by simp [amend, describes.pool, pool])
            (by simp [amend, describes.order, erased]) rfl (amend_current final)
      | false =>
          obtain ⟨replaced, stands⟩ := revise_at_open tidy.order_distinct here final
          exact .of_current (by simp [amend, describes.pool, pool])
            (by simp [amend, describes.order, replaced]) rfl stands (amend_current_of_open final)

/-! ### One call -/

theorem mem_order_head? {entry : Held Action} (here : ledger.at? (.queue 0) = some entry) :
    entry ∈ ledger.order.head? := by
  rw [List.head?_eq_getElem?]
  exact here

section Calls

variable [DecidableEq Action]

theorem Describes.perform (describes : ledger.Describes queue) (tidy : ledger.Tidy) {action : Action}
    {next : Queue Action} (performed : queue.perform action = .ok next) :
    ∃ label left, ledger.Allows (.landed action label left) ∧
      (ledger.record (.landed action label left)).Describes next := by
  obtain ⟨slot, tree, left, found, there, done, rfl⟩ := perform_eq_ok performed
  obtain ⟨entry, here, rfl⟩ := describes.exists_entry there
  refine ⟨entry.label, left, ⟨entry, mem_held_of_at? here, rfl, done, ?_⟩,
    describes.settle tidy here left⟩
  rcases target_eq_some found with current | ⟨none, ⟨index, rfl⟩ | rfl⟩
  · exact .inl (describes.current_of_slot current here)
  · exact .inr ⟨describes.rest none, .inl (List.mem_of_getElem? here)⟩
  · exact .inr ⟨describes.rest none, .inr (mem_order_head? here)⟩

theorem Describes.skip (describes : ledger.Describes queue) (tidy : ledger.Tidy) {next : Queue Action}
    (skipped : queue.skip = .ok next) :
    ∃ deed, deed.IsSkip ∧ ledger.Allows deed ∧ (ledger.record deed).Describes next := by
  rcases skip_eq_ok skipped with ⟨slot, tree, left, target, there, done, rfl⟩ | ⟨none, order, rfl⟩
  · obtain ⟨entry, here, rfl⟩ := describes.exists_entry there
    refine ⟨.skipped entry.label left, trivial, ⟨entry, mem_held_of_at? here, rfl, done, ?_⟩,
      (describes.settle tidy here left).release.dropIdle rfl⟩
    rw [skipTarget] at target
    rcases Option.or_eq_some_iff.mp target with current | ⟨none, front⟩
    · exact .inl (describes.current_of_slot current here)
    · rw [front?] at front
      split at front
      · cases front
      · cases front
        exact .inr ⟨describes.rest none, mem_order_head? here⟩
  · have idle : ledger.order = [] := by
      have same := describes.order
      rw [order] at same
      exact List.map_eq_nil_iff.mp same.symm
    have resting : ledger.release.Describes queue :=
      .of_released describes.pool describes.order none rfl
    exact ⟨.lapsed, trivial, ⟨describes.rest none, idle⟩, resting.dropIdle none⟩

theorem Describes.skipUntilEmpty (describes : ledger.Describes queue) (tidy : ledger.Tidy) {fuel : Nat}
    {drained : Queue Action}
    (skipped : Container.skipUntilEmpty Queue.isEmpty Queue.skip fuel queue = .ok drained) :
    ∃ deeds : List (Deed Action), (∀ deed ∈ deeds, deed.IsSkip) ∧ ledger.AllowsAll deeds ∧
      (ledger.recordAll deeds).Describes drained := by
  induction fuel generalizing ledger queue with
  | zero =>
      rw [Container.skipUntilEmpty] at skipped
      split at skipped
      · cases skipped
        exact ⟨[], by simp, trivial, describes⟩
      · cases skipped
  | succ fuel ih =>
      rw [Container.skipUntilEmpty] at skipped
      split at skipped
      · cases skipped
        exact ⟨[], by simp, trivial, describes⟩
      · obtain ⟨next, first, onward⟩ := bind_eq_ok.mp skipped
        obtain ⟨deed, isSkip, allows, nextDescribes⟩ := describes.skip tidy first
        obtain ⟨deeds, areSkips, allowsAll, drainedDescribes⟩ :=
          ih nextDescribes (tidy.record deed) onward
        exact ⟨deed :: deeds, List.forall_mem_cons.mpr ⟨isSkip, areSkips⟩, ⟨allows, allowsAll⟩,
          drainedDescribes⟩

end Calls

end Ledger

/-! ### Runs -/

inductive Request (Action : Type) where
  | command (command : Command Action)
  | pushOutcome (outcome : Outcome Action)

/-- The deeds that an accepted call may come to. -/
def Request.Does : Request Action → List (Deed Action) → Prop
  | .command (.common (.push trees)), deeds => deeds = [.pushed trees]
  | .command (.common (.perform action)), deeds => ∃ label next, deeds = [.landed action label next]
  | .command (.common .skip), deeds => ∃ deed : Deed Action, deed.IsSkip ∧ deeds = [deed]
  | .command (.common .skipAll), deeds => ∀ deed ∈ deeds, deed.IsSkip
  | .command (.common .clear), deeds => deeds = [.cleared]
  | .command (.pushAnyTime tree), deeds => deeds = [.pooled tree]
  | .command .release, deeds => deeds = [.released]
  | .pushOutcome outcome, deeds => deeds = [.pushed outcome.followUps]

section Runs

variable [DecidableEq Action]

def serve : Request Action → Queue Action → Except (Stop Action) (Queue Action)
  | .command command, queue => apply command queue
  | .pushOutcome outcome, queue => Stop.ofFault (Container.pushOutcome outcome queue)

/-- What became of everything in a run from an empty queue. A refused call does nothing, an accepted one
does deeds that the ledger allows, and the ledger describes the queue after each. -/
inductive Chronicle : List (Request Action) → List (Deed Action) → Queue Action → Prop
  | start : Chronicle [] [] empty
  | refused {requests : List (Request Action)} {deeds : List (Deed Action)} {queue : Queue Action}
      {request : Request Action} {refusal : Refusal Action} (before : Chronicle requests deeds queue)
      (stopped : serve request queue = .error (.refused refusal)) :
      Chronicle (requests ++ [request]) deeds queue
  | accepted {requests : List (Request Action)} {deeds more : List (Deed Action)}
      {queue next : Queue Action} {request : Request Action} (before : Chronicle requests deeds queue)
      (served : serve request queue = .ok next) (does : request.Does more)
      (allowed : (Ledger.of deeds).AllowsAll more)
      (describes : (Ledger.of (deeds ++ more)).Describes next) :
      Chronicle (requests ++ [request]) (deeds ++ more) next

namespace Chronicle

variable {requests rest : List (Request Action)} {deeds : List (Deed Action)}
  {queue reached : Queue Action}

theorem allowsAll (chronicle : Chronicle requests deeds queue) : Ledger.empty.AllowsAll deeds := by
  induction chronicle with
  | start => trivial
  | refused _ _ ih => exact ih
  | accepted _ _ _ allowed _ ih => exact Ledger.allowsAll_append.mpr ⟨ih, allowed⟩

theorem describes (chronicle : Chronicle requests deeds queue) : (Ledger.of deeds).Describes queue := by
  induction chronicle with
  | start => exact Ledger.empty_describes
  | refused _ _ ih => exact ih
  | accepted _ _ _ _ describes _ => exact describes

end Chronicle

theorem serve_does {ledger : Ledger Action} {queue next : Queue Action} {request : Request Action}
    (tidy : ledger.Tidy) (describes : ledger.Describes queue) (served : serve request queue = .ok next) :
    ∃ more, request.Does more ∧ ledger.AllowsAll more ∧ (ledger.recordAll more).Describes next := by
  match request with
  | .command (.common (.push trees)) =>
      exact ⟨[.pushed trees], rfl, ⟨trivial, trivial⟩, describes.push (ofFault_eq_ok served)⟩
  | .command (.common (.perform action)) =>
      obtain ⟨label, left, allows, nextDescribes⟩ := describes.perform tidy served
      exact ⟨[.landed action label left], ⟨label, left, rfl⟩, ⟨allows, trivial⟩, nextDescribes⟩
  | .command (.common .skip) =>
      obtain ⟨deed, isSkip, allows, nextDescribes⟩ := describes.skip tidy served
      exact ⟨[deed], ⟨deed, isSkip, rfl⟩, ⟨allows, trivial⟩, nextDescribes⟩
  | .command (.common .skipAll) => exact describes.skipUntilEmpty tidy served
  | .command (.common .clear) =>
      cases served
      exact ⟨[.cleared], rfl, ⟨trivial, trivial⟩, .of_released rfl rfl rfl rfl⟩
  | .command (.pushAnyTime tree) =>
      exact ⟨[.pooled tree], rfl, ⟨trivial, trivial⟩, describes.pushAnyTime (ofFault_eq_ok served)⟩
  | .command .release =>
      cases served
      exact ⟨[.released], rfl, ⟨trivial, trivial⟩, describes.release⟩
  | .pushOutcome outcome =>
      refine ⟨[.pushed outcome.followUps], rfl, ⟨trivial, trivial⟩, ?_⟩
      have pushed := ofFault_eq_ok served
      rw [Container.pushOutcome_eq] at pushed
      split at pushed
      · next none =>
          cases pushed
          rw [none]
          exact describes
      · exact describes.push pushed

theorem Chronicle.extend {requests rest : List (Request Action)} {deeds : List (Deed Action)}
    {queue reached : Queue Action} (before : Chronicle requests deeds queue)
    (ran : attemptAll serve rest queue = .ok reached) :
    ∃ deeds, Chronicle (requests ++ rest) deeds reached := by
  induction rest generalizing requests deeds queue with
  | nil =>
      cases ran
      exact ⟨deeds, (List.append_nil requests).symm ▸ before⟩
  | cons request rest ih =>
      obtain ⟨next, attempted, onward⟩ := bind_eq_ok.mp ran
      rw [attempt] at attempted
      rw [List.append_cons]
      split at attempted
      · next left served =>
          cases attempted
          obtain ⟨more, does, allowed, describes⟩ := serve_does (Ledger.of_tidy deeds) before.describes served
          rw [Ledger.of, ← Ledger.recordAll_append] at describes
          exact ih (before.accepted served does allowed describes) onward
      · next refusal stopped =>
          cases attempted
          exact ih (before.refused stopped) onward
      · cases attempted

/-- Calls of any kind, on any trees, from an empty queue: the run has a chronicle, in which nothing held
is final, nothing is held twice, all stand in the order they came in, and deed by deed nothing leaves
without one of the reasons there are. The slot in progress is in range and holds the very obligation
that the latest move landed on, as that move left it, with nothing but arrivals since; without a slot,
the latest move closed what it landed on, or something else happened after it. -/
theorem current_is_half_resolved (requests : List (Request Action)) (reached : Queue Action)
    (ran : attemptAll serve requests empty = .ok reached) :
    ∃ deeds, Chronicle requests deeds reached ∧
      (∀ tree ∈ reached.trees, tree.isFinal = false) ∧
      (∀ slot ∈ reached.current, ∃ label next, (Ledger.of deeds).at? slot = some ⟨label, next⟩ ∧
        reached.get? slot = some next ∧ LandedLast deeds label next) ∧
      (reached.current = none → ∀ label next, LandedLast deeds label next → next.isFinal = true) ∧
      (Ledger.of deeds).Tidy ∧
      ∀ before deed after, deeds = before ++ deed :: after →
        deed.Effect (.of before) (.of (before ++ [deed])) := by
  obtain ⟨deeds, chronicle⟩ := Chronicle.start.extend ran
  have tidy := Ledger.of_tidy deeds
  have describes := chronicle.describes
  have allowed := chronicle.allowsAll
  refine ⟨deeds, chronicle, ?_, ?_, ?_, tidy, ?_⟩
  · intro tree member
    rw [describes.trees] at member
    obtain ⟨entry, held, rfl⟩ := List.mem_map.mp member
    exact tidy.unresolved entry held
  · intro slot current
    obtain ⟨entry, here, progress⟩ := describes.slot slot current
    obtain ⟨next, landed, _⟩ := Ledger.of_current.mp progress
    have left : entry.tree = next := Ledger.tree_of_landedLast Ledger.empty_tidy allowed landed entry
      (Ledger.mem_held_of_at? here) rfl
    subst left
    exact ⟨entry.label, entry.tree, here, by rw [describes.get?, here]; rfl, landed⟩
  · intro released label next landed
    cases final : next.isFinal with
    | true => rfl
    | false =>
        have progress := Ledger.of_current.mpr ⟨next, landed, final⟩
        cases (describes.rest released).symm.trans progress
  · intro before deed after shape
    rw [Ledger.of, Ledger.of, Ledger.recordAll_append]
    exact Ledger.record_effect (Ledger.allows_of_allowsAll allowed shape)

open Obligation (freshAny mandatory) in
theorem current_is_half_resolved_behind :
    let pair : Obligation Scripted.Action := freshAny [mandatory .a, mandatory .b]
    let requests : List (Request Scripted.Action) :=
      [.command (.pushAnyTime (.optional .c)), .command (.common (.push [pair, .optional .d])),
        .command (.common (.perform .a)), .command (.common (.push [.optional .d])),
        .pushOutcome ⟨[mandatory .d, .single .d true true], true⟩, .command (.common (.perform .d))]
    ∃ reached deeds, attemptAll serve requests empty = .ok reached ∧
      reached.current = some (.queue 2) ∧ Chronicle requests deeds reached ∧
      ∃ label next, (Ledger.of deeds).at? (.queue 2) = some ⟨label, next⟩ ∧
        reached.get? (.queue 2) = some next ∧ LandedLast deeds label next := by
  intro pair requests
  have ran : attemptAll serve requests empty =
      .ok ⟨[.optional .c], [mandatory .d, .optional .d, .any [mandatory .b] none, .optional .d],
        some (.queue 2), by decide⟩ := rfl
  obtain ⟨deeds, chronicle, _, designates, _⟩ := current_is_half_resolved requests _ ran
  exact ⟨_, deeds, ran, rfl, chronicle, designates (.queue 2) rfl⟩

end Runs

end TurnObligations.Queue
