import TurnObligations.Obligation.Build
import TurnObligations.Proofs.Obligation.Storage
import TurnObligations.Queue.Storage
import TurnObligations.Scripted.Game
import TurnObligations.Stack.Storage

/-!
Trees, stacks and queues come back from JSON as they were, and validation alone decides which do.
-/

namespace TurnObligations

open Storage (Conforms FieldsConform option_conforms option_rebuilds)

theorem reserved_conforms {α : Type} [Storable α] [LawfulStorable α] {scope : Storage.Alternatives}
    (limit : Nat) (items : List α) :
    Conforms scope (.reserved limit (Storable.shape α)) (Storable.toDatum items) := by
  refine .reserved ?_
  intro datum member
  obtain ⟨item, _, rfl⟩ := List.mem_map.mp member
  exact LawfulStorable.conforms scope item

instance : LawfulStorable QueueSlot where
  conforms _ slot := by
    cases slot with
    | anyTime index => exact .variants rfl .index
    | queue index => exact .variants rfl .index
  rebuilds slot := by cases slot <;> rfl

theorem QueueSlot.toDatum_shown (slot : QueueSlot) : (Storable.toDatum slot).toJson ≠ .null := by
  cases slot <;> nofun

section Containers

variable {Action : Type} [NamedAction Action]

instance : LawfulStorable (Stack Action) where
  conforms _ stack :=
    FieldsConform.record (.cons (reserved_conforms _ stack.obligations) .nil) (by simp)
  rebuilds stack := by
    show (Storable.ofDatum? (Storable.toDatum stack.obligations)).map Stack.mk = some stack
    rw [LawfulStorable.rebuilds]
    rfl

instance : LawfulStorable (Queue Action) where
  conforms scope queue :=
    FieldsConform.record
      (.cons (LawfulStorable.conforms scope queue.anyTime)
        (.cons (reserved_conforms _ queue.order)
          (.cons (option_conforms QueueSlot.toDatum_shown scope queue.current) .nil)))
      (by simp)
  rebuilds queue := by
    have pool := LawfulStorable.rebuilds queue.anyTime
    have order := LawfulStorable.rebuilds queue.order
    have current := option_rebuilds queue.current
    simp only [Storable.ofDatum?, Storable.toDatum] at pool order current ⊢
    simp [pool, order, current, queue.room]

end Containers

/-- Whatever stands in its fields, a tree comes back from its JSON value, and from its JSON text if
that nests no deeper than the reader allows, exactly when it is valid; an invalid one gives the
complaint that validation makes. The texts of stacks and queues do likewise, slot in progress
included. -/
theorem saved_round_trip {Action : Type} [NamedAction Action] :
    (∀ tree : Obligation Action, Saved.Gated tree (Saved.ofJson? (Storage.toJson tree))) ∧
    (∀ tree : Obligation Action, (Storage.toJson tree).depth ≤ Json.maxDepth →
      Saved.Gated tree (Saved.ofText? (Storage.toText tree))) ∧
    (∀ stack : Stack Action, (Storage.toJson stack).depth ≤ Json.maxDepth →
      Saved.Gated stack (Saved.ofText? (Storage.toText stack))) ∧
    (∀ queue : Queue Action, (Storage.toJson queue).depth ≤ Json.maxDepth →
      Saved.Gated queue (Saved.ofText? (Storage.toText queue))) :=
  ⟨Saved.ofJson?_gated, Saved.ofText?_gated, Saved.ofText?_gated, Saved.ofText?_gated⟩

theorem saved_round_trip_queue :
    let queue : Queue Scripted.Action :=
      ⟨[.freshRepeat 1 2 (.mandatory .draw)], [.optional .move], some (.anyTime 0), by decide⟩
    let tree : Obligation Scripted.Action := .freshRepeat 3 2 (.mandatory .draw)
    ((Storage.toJson queue).depth ≤ Json.maxDepth ∧
      Saved.Gated queue (Saved.ofText? (Storage.toText queue))) ∧
    ((Storage.toJson tree).depth ≤ Json.maxDepth ∧
      Saved.ofText? (Storage.toText tree) =
        (.error (.corrupt (.repeatBounds 3 2)) : Except StorageError (Obligation Scripted.Action))) := by
  intro queue tree
  have queueShallow : (Storage.toJson queue).depth ≤ Json.maxDepth := by decide
  have treeShallow : (Storage.toJson tree).depth ≤ Json.maxDepth := by decide
  exact ⟨⟨queueShallow, saved_round_trip.2.2.2 queue queueShallow⟩, treeShallow,
    (saved_round_trip.2.1 tree treeShallow).rejected _ rfl⟩

end TurnObligations
