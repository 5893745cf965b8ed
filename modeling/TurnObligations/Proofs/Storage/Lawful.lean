import TurnObligations.Proofs.Storage.Text
import TurnObligations.Proofs.Storage.Value
import TurnObligations.Storage.Datum
import TurnObligations.Storage.Save

/-!
Types whose values survive being stored: what they are stored as has their shape and gives them back.
-/

namespace TurnObligations

class LawfulStorable (α : Type) [Storable α] : Prop where
  conforms : ∀ (scope : Storage.Alternatives) (value : α),
    Storage.Conforms scope (Storable.shape α) (Storable.toDatum value)
  rebuilds : ∀ value : α, Storable.ofDatum? (Storable.toDatum value) = some value

namespace Storage

variable {α : Type} [Storable α] [LawfulStorable α]

theorem mapM_rebuilds (items : List α) :
    (items.map Storable.toDatum).mapM Storable.ofDatum? = some items := by
  induction items with
  | nil => rfl
  | cons item rest ih =>
      rw [List.map_cons, List.mapM_cons, LawfulStorable.rebuilds, ih]
      rfl

instance : LawfulStorable UInt8 where
  conforms _ _ := .byte
  rebuilds _ := rfl

instance : LawfulStorable UInt64 where
  conforms _ _ := .index
  rebuilds _ := rfl

theorem index_shown (index : UInt64) : (Storable.toDatum index).toJson ≠ .null := by
  show Json.integer _ ≠ .null
  nofun

instance : LawfulStorable (List α) where
  conforms scope items := by
    refine .list ?_
    intro datum member
    obtain ⟨item, _, rfl⟩ := List.mem_map.mp member
    exact LawfulStorable.conforms scope item
  rebuilds := mapM_rebuilds

theorem option_conforms (shown : ∀ value : α, (Storable.toDatum value).toJson ≠ .null)
    (scope : Alternatives) (value : Option α) :
    Conforms scope (.option (Storable.shape α)) (Storable.toDatum value) := by
  cases value with
  | none => exact .absent
  | some value => exact .present (shown value) (LawfulStorable.conforms scope value)

theorem option_rebuilds (value : Option α) :
    Storable.ofDatum? (Storable.toDatum value) = some value := by
  cases value with
  | none => rfl
  | some value =>
      show (Storable.ofDatum? (Storable.toDatum value)).map some = some (some value)
      rw [LawfulStorable.rebuilds]
      rfl

theorem ofJson?_toJson (value : α) : Storage.ofJson? (Storage.toJson value) = .ok value := by
  rw [ofJson?, toJson, ofJson_of_conforms (LawfulStorable.conforms [] value), rebuild]
  simp only [LawfulStorable.rebuilds]

theorem ofText?_toText (value : α) (shallow : (Storage.toJson value).depth ≤ Json.maxDepth) :
    Storage.ofText? (Storage.toText value) = .ok value := by
  rw [ofText?, toText, toJson, readDatum_of_conforms (LawfulStorable.conforms [] value) shallow,
    rebuild]
  simp only [LawfulStorable.rebuilds]

end Storage

namespace Saved

variable {α : Type} [Saved α]

/-- What was read is the value if the value is valid, and otherwise the complaint about it. -/
structure Gated (value : α) (read : Except StorageError α) : Prop where
  accepted : read = .ok value ↔ validate value = .ok ()
  rejected : ∀ cause, validate value = .error cause → read = .error (.corrupt cause)

theorem check_ok_gated (value : α) : Gated value (check (.ok value)) := by
  rw [check, ok_bind]
  cases checked : validate value with
  | ok _ => exact ⟨by simp [checked], by simp [checked]⟩
  | error cause => exact ⟨by simp [checked], by simp [checked]⟩

theorem check_eq_ok_iff {read : Except StorageError α} {value : α} :
    check read = .ok value ↔ read = .ok value ∧ validate value = .ok () := by
  constructor
  · intro checked
    obtain ⟨held, took, rest⟩ := bind_eq_ok.mp checked
    split at rest
    · next valid =>
        cases rest
        exact ⟨took, valid⟩
    · cases rest
  · rintro ⟨rfl, valid⟩
    exact (check_ok_gated value).accepted.mpr valid

theorem validate_of_check {read : Except StorageError α} {value : α}
    (checked : check read = .ok value) : validate value = .ok () :=
  (check_eq_ok_iff.mp checked).2

theorem ofJson?_gated [LawfulStorable α] (value : α) : Gated value (ofJson? (Storage.toJson value)) := by
  rw [ofJson?, Storage.ofJson?_toJson]
  exact check_ok_gated value

theorem ofText?_gated [LawfulStorable α] (value : α)
    (shallow : (Storage.toJson value).depth ≤ Json.maxDepth) :
    Gated value (ofText? (Storage.toText value)) := by
  rw [ofText?, Storage.ofText?_toText value shallow]
  exact check_ok_gated value

end Saved

end TurnObligations
