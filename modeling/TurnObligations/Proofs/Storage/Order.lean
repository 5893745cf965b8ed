import TurnObligations.Proofs.Storage.Value

/-!
The entries of a record may be read in any order.
-/

namespace TurnObligations.Storage

variable {scope : Alternatives} {fields : List (String × Shape)}

def ofField (scope : Alternatives) (fields : List (String × Shape)) (reader : String × ValueReader) :
    Except ReadError Slots :=
  match fields.lookup reader.1 with
  | none => .ok []
  | some shape => do return [(reader.1, ← reader.2 scope shape)]

theorem ofFields_cons (reader : String × ValueReader) (rest : List (String × ValueReader)) :
    ofFields scope fields (reader :: rest) = (do
      let slots ← ofField scope fields reader
      return slots ++ (← ofFields scope fields rest)) := by
  rw [ofFields, ofField]
  cases fields.lookup reader.1 with
  | none => exact (bind_pure _).symm
  | some shape =>
      dsimp only
      cases reader.2 scope shape with
      | ok value => rfl
      | error flaw => rfl

theorem ofFields_keys {readers : List (String × ValueReader)} {slots : Slots}
    (read : ofFields scope fields readers = .ok slots) :
    (slots.map Prod.fst).Sublist (readers.map Prod.fst) := by
  induction readers generalizing slots with
  | nil =>
      cases read
      exact .slnil
  | cons reader rest ih =>
      obtain ⟨key, value⟩ := reader
      rw [ofFields] at read
      cases known : fields.lookup key with
      | none =>
          rw [known] at read
          exact (ih read).cons key
      | some shape =>
          rw [known] at read
          obtain ⟨datum, _, read⟩ := bind_eq_ok.mp read
          obtain ⟨later, found, result⟩ := bind_eq_ok.mp read
          cases result
          exact (ih found).cons_cons key

/-- The same entries read in another order. -/
inductive Reordered (left right : Except ReadError Slots) : Prop
  | accepted (slots slots' : Slots) (took : left = .ok slots) (took' : right = .ok slots')
      (perm : slots.Perm slots')
  | rejected {flaw flaw' : ReadError} (failed : left = .error flaw) (failed' : right = .error flaw')

theorem ofFields_perm (scope : Alternatives) (fields : List (String × Shape))
    {readers readers' : List (String × ValueReader)} (perm : readers.Perm readers') :
    Reordered (ofFields scope fields readers) (ofFields scope fields readers') := by
  induction perm with
  | nil => exact .accepted [] [] rfl rfl .nil
  | cons reader _ ih =>
      rw [ofFields_cons, ofFields_cons]
      cases ofField scope fields reader with
      | error flaw => exact .rejected rfl rfl
      | ok first =>
          cases ih with
          | accepted slots slots' took took' perm =>
              rw [took, took']
              exact .accepted _ _ rfl rfl (perm.append_left first)
          | rejected failed failed' =>
              rw [failed, failed']
              exact .rejected rfl rfl
  | swap reader reader' rest =>
      simp only [ofFields_cons]
      cases ofField scope fields reader with
      | error flaw => cases ofField scope fields reader' <;> exact .rejected rfl rfl
      | ok first =>
          cases ofField scope fields reader' with
          | error flaw => exact .rejected rfl rfl
          | ok second =>
              cases ofFields scope fields rest with
              | error flaw => exact .rejected rfl rfl
              | ok slots => exact .accepted _ _ rfl rfl (List.perm_append_comm_assoc second first slots)
  | trans _ _ ih ih' =>
      cases ih with
      | accepted slots between took through perm =>
          cases ih' with
          | accepted between' slots' through' took' perm' =>
              cases through.symm.trans through'
              exact .accepted _ _ took took' (perm.trans perm')
          | rejected failed => cases through.symm.trans failed
      | rejected failed between =>
          cases ih' with
          | accepted _ _ through => cases between.symm.trans through
          | rejected _ failed' => exact .rejected failed failed'

theorem lookup_of_perm {α : Type} {entries entries' : List (String × α)}
    (distinct : (entries.map Prod.fst).Nodup) (perm : entries.Perm entries') (key : String) :
    entries.lookup key = entries'.lookup key := by
  cases found : entries'.lookup key with
  | some value => exact lookup_of_distinct distinct (perm.mem_iff.mpr (mem_of_lookup found))
  | none =>
      rw [List.lookup_eq_none_iff] at found ⊢
      exact fun entry member => found entry (perm.mem_iff.mp member)

theorem assemble_perm {slots slots' : Slots} (distinct : (slots.map Prod.fst).Nodup)
    (perm : slots.Perm slots') (fields : List (String × Shape)) :
    assemble slots fields = assemble slots' fields := by
  induction fields with
  | nil => rfl
  | cons field rest ih => simp only [assemble, lookup_of_perm distinct perm, ih]

end TurnObligations.Storage
