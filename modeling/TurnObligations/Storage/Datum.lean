import TurnObligations.Json.Render

/-!
States as plain data, ready to be written, and shapes: what a reader must find to rebuild them.
-/

namespace TurnObligations

/-- A stored value. Fields and variants carry the names that JSON shows, and variants also the index
that a snapshot shows. -/
inductive Datum where
  | unit
  | bool (value : Bool)
  | byte (value : UInt8)
  | count (value : UInt32)
  | index (value : UInt64)
  | signed (value : Int64)
  | word (text : String)
  | absent
  | present (value : Datum)
  | list (items : List Datum)
  | record (fields : List (String × Datum))
  | variant (position : UInt32) (name : String) (payload : Datum)
  | label (position : UInt32) (name : String)

/-- The form of stored values. `recursive` is a set of named alternatives in which `recur` stands
for the set itself, a `word` is an action name that must be known, and `unit` is nothing at all. A
`reserved` list is one for which room is made before its items are read: for `limit` at most. -/
inductive Shape where
  | unit
  | bool
  | byte
  | count
  | index
  | signed
  | word (known : String → Bool)
  | option (item : Shape)
  | list (item : Shape)
  | reserved (limit : Nat) (item : Shape)
  | record (name : String) (fields : List (String × Shape))
  | variants (alternatives : List (String × Shape))
  | labels (names : List String)
  | recursive (alternatives : List (String × Shape))
  | recur

namespace Datum

mutual

def toJson : Datum → Json
  | .unit => .null
  | .bool value => .bool value
  | .byte value => .integer value.toNat
  | .count value => .integer value.toNat
  | .index value => .integer value.toNat
  | .signed value => .integer value.toInt
  | .word text => .text text
  | .absent => .null
  | .present value => toJson value
  | .list items => .array (toJsonItems items)
  | .record fields => .object (toJsonFields fields)
  | .variant _ name payload => .object [(name, toJson payload)]
  | .label _ name => .text name

def toJsonItems : List Datum → List Json
  | [] => []
  | item :: rest => toJson item :: toJsonItems rest

def toJsonFields : List (String × Datum) → List (String × Json)
  | [] => []
  | (name, value) :: rest => (name, toJson value) :: toJsonFields rest

end

theorem toJsonItems_eq (items : List Datum) : toJsonItems items = items.map toJson := by
  induction items with
  | nil => rfl
  | cons item rest ih => simp [toJsonItems, ih]

theorem toJsonFields_eq (fields : List (String × Datum)) :
    toJsonFields fields = fields.map fun field => (field.1, toJson field.2) := by
  induction fields with
  | nil => rfl
  | cons field rest ih => simp [toJsonFields, ih]

end Datum

class Storable (α : Type) where
  shape : Shape
  toDatum : α → Datum
  ofDatum? : Datum → Option α

/-! ### Words, lists and options -/

instance : Storable UInt8 where
  shape := .byte
  toDatum := .byte
  ofDatum?
    | .byte value => some value
    | _ => none

instance : Storable UInt32 where
  shape := .count
  toDatum := .count
  ofDatum?
    | .count value => some value
    | _ => none

instance : Storable UInt64 where
  shape := .index
  toDatum := .index
  ofDatum?
    | .index value => some value
    | _ => none

instance : Storable Int64 where
  shape := .signed
  toDatum := .signed
  ofDatum?
    | .signed value => some value
    | _ => none

instance : Storable Bool where
  shape := .bool
  toDatum := .bool
  ofDatum?
    | .bool value => some value
    | _ => none

instance {α : Type} [Storable α] : Storable (List α) where
  shape := .list (Storable.shape α)
  toDatum items := .list (items.map Storable.toDatum)
  ofDatum?
    | .list items => items.mapM Storable.ofDatum?
    | _ => none

instance {α : Type} [Storable α] : Storable (Option α) where
  shape := .option (Storable.shape α)
  toDatum
    | none => .absent
    | some value => .present (Storable.toDatum value)
  ofDatum?
    | .absent => some none
    | .present value => (Storable.ofDatum? value).map some
    | _ => none

end TurnObligations
