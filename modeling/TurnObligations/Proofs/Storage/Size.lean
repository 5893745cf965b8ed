import TurnObligations.Proofs.Storage.Bytes

/-!
How much room stored values take: bytes in a snapshot, and nested brackets in JSON.
-/

namespace TurnObligations

namespace Snapshot

theorem encode_returns {α : Type} [Storable α] {value : α}
    (small : (write (Storable.toDatum value)).length < sizeLimit) :
    ∃ taken, encode value = .ok taken := ⟨_, if_pos small⟩

theorem length_write_of_encode {α : Type} [Storable α] {value : α} {taken : Snapshot}
    (encoded : encode value = .ok taken) :
    (write (Storable.toDatum value)).length < sizeLimit := by
  by_cases small : (write (Storable.toDatum value)).length < sizeLimit
  · exact small
  · have failed : encode value = .error .capacityExceeded := if_neg small
    cases failed.symm.trans encoded

theorem length_le_write_list {α : Type} [Storable α] [LawfulStorable α]
    (occupies : (Storable.shape α).occupies = true) (items : List α) :
    items.length ≤ (write (Storable.toDatum items)).length := by
  have room : ∀ datum ∈ items.map Storable.toDatum, 0 < (write datum).length := by
    intro datum member
    obtain ⟨item, _, rfl⟩ := List.mem_map.mp member
    exact write_pos (LawfulStorable.conforms [] item) occupies
  have within := length_le_writeItems room
  rw [List.length_map] at within
  show items.length ≤ (littleEndian 8 _ ++ writeItems (items.map Storable.toDatum)).length
  rw [List.length_append]
  exact Nat.le_trans within (Nat.le_add_left _ _)

theorem length_writeItems_le {items : List Datum} {most : Nat}
    (each : ∀ item ∈ items, (write item).length ≤ most) :
    (writeItems items).length ≤ most * items.length := by
  induction items with
  | nil => exact Nat.zero_le _
  | cons item rest ih =>
      have first := each item (by simp)
      have others := ih fun other member => each other (by simp [member])
      rw [writeItems, List.length_append, List.length_cons, Nat.mul_succ]
      omega

theorem length_write_list_le {α : Type} [Storable α] {items : List α} {most : Nat}
    (each : ∀ item ∈ items, (write (Storable.toDatum item)).length ≤ most) :
    (write (Storable.toDatum items)).length ≤ 8 + most * items.length := by
  have stored : ∀ datum ∈ items.map Storable.toDatum, (write datum).length ≤ most := by
    intro datum member
    obtain ⟨item, listed, rfl⟩ := List.mem_map.mp member
    exact each item listed
  have within := length_writeItems_le stored
  rw [List.length_map] at within
  show (littleEndian 8 _ ++ writeItems (items.map Storable.toDatum)).length ≤ _
  rw [List.length_append, length_littleEndian]
  omega

theorem length_write_bytes (bytes : List UInt8) :
    (write (Storable.toDatum bytes)).length ≤ 8 + bytes.length := by
  have each : ∀ byte ∈ bytes, (write (Storable.toDatum byte)).length ≤ 1 :=
    fun byte _ => Nat.le_refl 1
  have within := length_write_list_le each
  omega

theorem length_write_position (position : Option UInt64) :
    (write (Storable.toDatum position)).length ≤ 9 := by
  cases position with
  | none => decide
  | some index =>
      show (littleEndian 8 index.toNat).length + 1 ≤ 9
      exact Nat.succ_le_succ (Nat.le_of_eq (length_littleEndian 8 index.toNat))

end Snapshot

namespace Json

theorem depthItems_le {items : List Json} {most : Nat} (each : ∀ item ∈ items, item.depth ≤ most) :
    depthItems items ≤ most := by
  induction items with
  | nil => exact Nat.zero_le _
  | cons item rest ih =>
      rw [depthItems]
      exact Nat.max_le.mpr
        ⟨each item (by simp), ih fun other member => each other (by simp [member])⟩

end Json

namespace Storage

theorem depth_list_le {α : Type} [Storable α] {items : List α} {most : Nat}
    (each : ∀ item ∈ items, (toJson item).depth ≤ most) : (toJson items).depth ≤ most + 1 := by
  show Json.depthItems (Datum.toJsonItems (items.map Storable.toDatum)) + 1 ≤ most + 1
  rw [Datum.toJsonItems_eq, List.map_map]
  refine Nat.succ_le_succ (Json.depthItems_le ?_)
  intro json member
  obtain ⟨item, listed, rfl⟩ := List.mem_map.mp member
  exact each item listed

theorem depth_bytes_le (bytes : List UInt8) : (toJson bytes).depth ≤ 1 :=
  depth_list_le fun _ _ => Nat.le_refl 0

theorem depth_position (position : Option UInt64) : (toJson position).depth = 0 := by
  cases position <;> rfl

end Storage

end TurnObligations
