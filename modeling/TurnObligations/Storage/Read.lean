import TurnObligations.Json.Parse
import TurnObligations.Storage.Datum

/-!
What the two JSON readers share: how a shape is named in a mismatch, and how scalars, records and
variants are put together once their parts are read.
-/

namespace TurnObligations

namespace Shape

def expectation : Shape → String
  | .unit => "unit"
  | .bool => "a boolean"
  | .byte => "u8"
  | .count => "u32"
  | .index => "usize"
  | .signed => "i64"
  | .word _ => "a string"
  | .option item => item.expectation
  | .list _ | .reserved .. => "a sequence"
  | .record name _ => "struct " ++ name
  | .variants _ | .labels _ | .recursive _ | .recur => "string or map"

def isOption : Shape → Bool
  | .option _ => true
  | _ => false

end Shape

namespace Storage

abbrev Alternatives := List (String × Shape)

def mismatch {α : Type} (cause : Mismatch) : Except ReadError α := .error (.mismatch cause)

def wrongType {α : Type} (found : Found) (shape : Shape) : Except ReadError α :=
  mismatch (.wrongType found shape.expectation)

def ofBool (value : Bool) : Shape → Except ReadError Datum
  | .bool => .ok (.bool value)
  | .option item => do return .present (← ofBool value item)
  | shape => wrongType (.bool value) shape

def ofInteger (value : Int) : Shape → Except ReadError Datum
  | .byte =>
      if 0 ≤ value && value < UInt8.size then .ok (.byte (UInt8.ofNat value.toNat))
      else mismatch (.wrongValue (.integer value) Shape.byte.expectation)
  | .count =>
      if 0 ≤ value && value < UInt32.size then .ok (.count (UInt32.ofNat value.toNat))
      else mismatch (.wrongValue (.integer value) Shape.count.expectation)
  | .index =>
      if 0 ≤ value && value < UInt64.size then .ok (.index (UInt64.ofNat value.toNat))
      else mismatch (.wrongValue (.integer value) Shape.index.expectation)
  | .signed =>
      if Int64.minValue.toInt ≤ value && value ≤ Int64.maxValue.toInt then
        .ok (.signed (Int64.ofInt value))
      else mismatch (.wrongValue (.integer value) Shape.signed.expectation)
  | .option item => do return .present (← ofInteger value item)
  | shape => wrongType (.integer value) shape

def ofWord (known : String → Bool) (text : String) : Except ReadError Datum :=
  if known text then .ok (.word text) else mismatch (.unknownAction text)

def alternative? (alternatives : Alternatives) (name : String) : Option (UInt32 × Shape) :=
  match alternatives.findIdx? fun alternative => alternative.1 == name with
  | none => none
  | some position =>
      alternatives[position]?.map fun alternative => (UInt32.ofNat position, alternative.2)

def chooseVariant (alternatives : Alternatives) (name : String) :
    Except ReadError (UInt32 × Shape) :=
  match alternative? alternatives name with
  | some found => .ok found
  | none => mismatch (.unknownVariant name (alternatives.map (·.1)))

def chooseLabel (names : List String) (name : String) : Except ReadError Datum :=
  match names.findIdx? (· == name) with
  | some position => .ok (.label (UInt32.ofNat position) name)
  | none => mismatch (.unknownVariant name names)

def bareVariant (alternatives : Alternatives) (name : String) : Except ReadError Datum := do
  let _ ← chooseVariant alternatives name
  mismatch (.wrongType .unitVariant "newtype variant")

abbrev Slots := List (String × Datum)

def assemble (slots : Slots) : List (String × Shape) → Except ReadError (List (String × Datum))
  | [] => .ok []
  | (name, shape) :: rest => do
      let value ← match slots.lookup name with
        | some value => .ok value
        | none => if shape.isOption then .ok .absent else mismatch (.missingField name)
      return (name, value) :: (← assemble slots rest)

end Storage

end TurnObligations
