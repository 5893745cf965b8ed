import TurnObligations.Proofs.Container
import TurnObligations.Queue.Storage

/-!
Queues of valid trees whose obligation in progress is pending and open, and what becomes of them when
the obligation at one slot changes.
-/

namespace TurnObligations.Queue

open Obligation (stillOpen)

variable {Action : Type} {queue : Queue Action}

def trees (queue : Queue Action) : List (Obligation Action) := queue.anyTime ++ queue.order

theorem length_trees (queue : Queue Action) : queue.trees.length = queue.length := by
  simp [trees, length]

structure Valid (queue : Queue Action) : Prop where
  trees : ∀ tree ∈ queue.trees, tree.Valid
  slot : ∀ slot ∈ queue.current, ∃ tree, queue.get? slot = some tree ∧ tree.isFinal = false

theorem checkSlot_eq_ok_iff (queue : Queue Action) :
    queue.checkSlot = .ok () ↔
      ∀ slot ∈ queue.current, ∃ tree, queue.get? slot = some tree ∧ tree.isFinal = false := by
  rw [checkSlot]
  cases queue.current with
  | none => simp
  | some slot =>
      simp only [Option.mem_def, Option.some.injEq, forall_eq']
      cases queue.get? slot with
      | none => simp
      | some tree => simp

theorem validate_eq_ok_iff (queue : Queue Action) : queue.validate = .ok () ↔ queue.Valid := by
  rw [validate, bind_unit_eq_ok, Obligation.validateAll_eq_ok_iff, checkSlot_eq_ok_iff]
  simp only [Obligation.validate_eq_ok_iff]
  exact ⟨fun both => ⟨both.1, both.2⟩, fun valid => ⟨valid.trees, valid.slot⟩⟩

theorem empty_valid : (empty : Queue Action).Valid :=
  ⟨by simp [trees, empty], by simp [empty]⟩

/-! ### The obligation at a slot -/

theorem mem_trees_of_get? {slot : QueueSlot} {tree : Obligation Action}
    (here : queue.get? slot = some tree) : tree ∈ queue.trees := by
  cases slot with
  | anyTime index => exact List.mem_append_left _ (List.mem_of_getElem? here)
  | queue index => exact List.mem_append_right _ (List.mem_of_getElem? here)

theorem Valid.at {slot : QueueSlot} {tree : Obligation Action} (valid : queue.Valid)
    (here : queue.get? slot = some tree) : tree.Valid :=
  valid.trees tree (mem_trees_of_get? here)

theorem exists_split_of_getElem? {α : Type} {items : List α} {index : Nat} {item : α}
    (found : items[index]? = some item) :
    ∃ before after, items = before ++ item :: after ∧ index = before.length := by
  obtain ⟨bound, here⟩ := List.getElem?_eq_some_iff.mp found
  obtain ⟨before, item', after, rfl, place⟩ := Obligation.exists_split_at bound
  have same : item' = item := by simpa [place] using found
  exact ⟨before, after, by rw [same], place⟩

theorem settle_trees {slot : QueueSlot} {tree : Obligation Action}
    (here : queue.get? slot = some tree) (next : Obligation Action) :
    ∃ before after, queue.trees = before ++ tree :: after ∧
      (queue.settle slot next).trees = before ++ ((stillOpen next).toList ++ after) := by
  cases slot with
  | anyTime index =>
      obtain ⟨before, after, shape, place⟩ := exists_split_of_getElem? here
      refine ⟨before, after ++ queue.order, by simp [trees, shape], ?_⟩
      rw [settle]
      cases final : next.isFinal with
      | true => simp [trees, shape, place, stillOpen, final, List.eraseIdx_append_of_length_le]
      | false => simp [trees, shape, place, stillOpen, final]
  | queue index =>
      obtain ⟨before, after, shape, place⟩ := exists_split_of_getElem? here
      refine ⟨queue.anyTime ++ before, after, by simp [trees, shape], ?_⟩
      rw [settle]
      cases final : next.isFinal with
      | true => simp [trees, shape, place, stillOpen, final, List.eraseIdx_append_of_length_le]
      | false => simp [trees, shape, place, stillOpen, final]

theorem settle_slot {slot : QueueSlot} {tree : Obligation Action}
    (here : queue.get? slot = some tree) (next : Obligation Action) :
    ∀ slot' ∈ (queue.settle slot next).current,
      ∃ tree, (queue.settle slot next).get? slot' = some tree ∧ tree.isFinal = false := by
  cases slot with
  | anyTime index =>
      have bound := (List.getElem?_eq_some_iff.mp here).1
      rw [settle]
      cases final : next.isFinal with
      | true => simp
      | false => simp [get?, bound, final]
  | queue index =>
      have bound := (List.getElem?_eq_some_iff.mp here).1
      rw [settle]
      cases final : next.isFinal with
      | true => simp
      | false => simp [get?, bound, final]

theorem settle_forall {holds : Obligation Action → Prop} {slot : QueueSlot}
    {tree next : Obligation Action} (here : queue.get? slot = some tree)
    (allHold : ∀ tree ∈ queue.trees, holds tree) (nextHolds : holds next) :
    ∀ tree ∈ (queue.settle slot next).trees, holds tree := by
  obtain ⟨before, after, shape, shape'⟩ := settle_trees here next
  intro other member
  rw [shape'] at member
  simp only [List.mem_append, Option.mem_toList, Obligation.stillOpen_eq_some] at member
  rcases member with earlier | ⟨_, rfl⟩ | later
  · exact allHold other (by simp [shape, earlier])
  · exact nextHolds
  · exact allHold other (by simp [shape, later])

theorem settle_valid {slot : QueueSlot} {tree next : Obligation Action} (valid : queue.Valid)
    (here : queue.get? slot = some tree) (nextValid : next.Valid) :
    (queue.settle slot next).Valid :=
  ⟨settle_forall here valid.trees nextValid, settle_slot here next⟩

theorem settle_length_le {slot : QueueSlot} {tree : Obligation Action}
    (here : queue.get? slot = some tree) (next : Obligation Action) :
    (queue.settle slot next).length ≤ queue.length := by
  obtain ⟨before, after, shape, shape'⟩ := settle_trees here next
  have kept : (stillOpen next).toList.length ≤ 1 := by
    cases stillOpen next <;> simp
  rw [← length_trees, ← length_trees, shape, shape']
  simp only [List.length_append, List.length_cons]
  omega

end TurnObligations.Queue
