import TurnObligations.Fault
import TurnObligations.Storage.Datum
import TurnObligations.Text.Bytes

/-!
Snapshots: states as bytes. Words are little endian and of fixed width, sequences and texts carry
their length in front, options a flag and variants their position, so that a reader needs no more
than the shape to know where a state ends.
-/

namespace TurnObligations

inductive SnapshotError where
  | exhausted
  | badBool (found : UInt8)
  | badOption (found : UInt8)
  | badVariant (found : Nat) (alternatives : Nat)
  | badText (flaw : Text.Utf8Flaw)
  | unknownAction (name : String)
  | faulted (fault : Fault)
deriving DecidableEq, Repr

def SnapshotError.message : SnapshotError → String
  | .exhausted => "unexpected end of file"
  | .badBool found => s!"invalid u8 while decoding bool, expected 0 or 1, found {found.toNat}"
  | .badOption found => s!"tag for enum is not valid, found {found.toNat}"
  | .badVariant found alternatives =>
      s!"invalid value: integer `{found}`, expected variant index 0 <= i < {alternatives}"
  | .badText flaw => s!"string is not valid utf8: {flaw.message}"
  | .unknownAction name => s!"unknown action type `{name}`"
  | .faulted fault => fault.message

structure Snapshot where
  bytes : List UInt8
deriving DecidableEq, Repr

namespace Snapshot

/-! ### Writing -/

def littleEndian : (width : Nat) → Nat → List UInt8
  | 0, _ => []
  | width + 1, value => UInt8.ofNat (value % 256) :: littleEndian width (value / 256)

theorem length_littleEndian (width value : Nat) : (littleEndian width value).length = width := by
  induction width generalizing value with
  | zero => rfl
  | succ width ih => simp [littleEndian, ih]

mutual

def write : Datum → List UInt8
  | .unit => []
  | .bool value => [if value then 1 else 0]
  | .byte value => [value]
  | .count value => littleEndian 4 value.toNat
  | .index value => littleEndian 8 value.toNat
  | .signed value => littleEndian 8 value.toUInt64.toNat
  | .word text => littleEndian 8 text.toUTF8.size ++ text.toUTF8.data.toList
  | .absent => [0]
  | .present value => 1 :: write value
  | .list items => littleEndian 8 items.length ++ writeItems items
  | .record fields => writeFields fields
  | .variant position _ payload => littleEndian 4 position.toNat ++ write payload
  | .label position _ => littleEndian 4 position.toNat

def writeItems : List Datum → List UInt8
  | [] => []
  | item :: rest => write item ++ writeItems rest

def writeFields : List (String × Datum) → List UInt8
  | [] => []
  | (_, value) :: rest => write value ++ writeFields rest

end

/-! ### Reading -/

abbrev Reader (α : Type) := List UInt8 → Except SnapshotError (α × List UInt8)

def readByte : Reader UInt8
  | [] => .error .exhausted
  | byte :: rest => .ok (byte, rest)

def readWord : (width : Nat) → Reader Nat
  | 0, input => .ok (0, input)
  | width + 1, input => do
      let (low, rest) ← readByte input
      let (high, rest) ← readWord width rest
      return (low.toNat + 256 * high, rest)

theorem readWord_littleEndian (width value : Nat) (bound : value < Nat.pow 256 width)
    (rest : List UInt8) :
    readWord width (littleEndian width value ++ rest) = .ok (value, rest) := by
  induction width generalizing value with
  | zero =>
      have zero : value = 0 := by simpa using bound
      simp [readWord, littleEndian, zero]
  | succ width ih =>
      have high : value / 256 < Nat.pow 256 width := by
        rw [Nat.div_lt_iff_lt_mul (by decide)]
        simpa [Nat.pow_succ] using bound
      simp only [readWord, littleEndian, List.cons_append, readByte, ih _ high, bind, Except.bind,
        pure, Except.pure, UInt8.toNat_ofNat']
      congr 2
      omega

def readBool : Reader Bool := fun input => do
  let (flag, rest) ← readByte input
  if flag = 0 then return (false, rest)
  else if flag = 1 then return (true, rest)
  else .error (.badBool flag)

def readUtf8 (length : Nat) : Reader String := fun input =>
  if input.length < length then .error .exhausted
  else
    match String.fromUTF8? ⟨(input.take length).toArray⟩ with
    | some text => .ok (text, input.drop length)
    | none => .error (.badText ((Text.utf8Flaw? (input.take length)).getD ⟨0, none⟩))

def readActionName (known : String → Bool) : Reader Datum := fun input => do
  let (length, rest) ← readWord 8 input
  let (text, rest) ← readUtf8 length rest
  if known text then return (.word text, rest) else .error (.unknownAction text)

def readItems (item : Reader Datum) : Nat → Reader (List Datum)
  | 0, input => .ok ([], input)
  | count + 1, input => do
      let (head, rest) ← item input
      let (tail, rest) ← readItems item count rest
      return (head :: tail, rest)

/-- The reader that refers to itself at every nested place, for inputs of at most `fuel` bytes. -/
def tie (step : Reader Datum → Reader Datum) : (fuel : Nat) → Reader Datum
  | 0 => fun _ => .error .exhausted
  | fuel + 1 => step (tie step fuel)

def readLabel (names : List String) : Reader Datum := fun input => do
  let (position, rest) ← readWord 4 input
  match names[position]? with
  | some name => return (.label (UInt32.ofNat position) name, rest)
  | none => .error (.badVariant position names.length)

mutual

def read (knot : Reader Datum) : Shape → Reader Datum
  | .unit => fun input => .ok (.unit, input)
  | .bool => fun input => do
      let (value, rest) ← readBool input
      return (.bool value, rest)
  | .byte => fun input => do
      let (value, rest) ← readByte input
      return (.byte value, rest)
  | .count => fun input => do
      let (value, rest) ← readWord 4 input
      return (.count (UInt32.ofNat value), rest)
  | .index => fun input => do
      let (value, rest) ← readWord 8 input
      return (.index (UInt64.ofNat value), rest)
  | .signed => fun input => do
      let (value, rest) ← readWord 8 input
      return (.signed (UInt64.ofNat value).toInt64, rest)
  | .word known => readActionName known
  | .option item => fun input => do
      let (flag, rest) ← readByte input
      if flag = 0 then return (.absent, rest)
      else if flag = 1 then
        let (value, rest) ← read knot item rest
        return (.present value, rest)
      else .error (.badOption flag)
  | .list item => fun input => do
      let (count, rest) ← readWord 8 input
      let (items, rest) ← readItems (read knot item) count rest
      return (.list items, rest)
  | .reserved limit item => fun input => do
      let (count, rest) ← readWord 8 input
      if limit < count then .error (.faulted .capacityExceeded)
      else
        let (items, rest) ← readItems (read knot item) count rest
        return (.list items, rest)
  | .record _ fields => fun input => do
      let (fields, rest) ← readFields knot fields input
      return (.record fields, rest)
  | .variants alternatives => readVariant knot alternatives
  | .labels names => readLabel names
  | .recursive alternatives => fun input =>
      tie (fun knot => readVariant knot alternatives) input.length input
  | .recur => knot

def readFields (knot : Reader Datum) : List (String × Shape) → Reader (List (String × Datum))
  | [], input => .ok ([], input)
  | (name, shape) :: more, input => do
      let (value, rest) ← read knot shape input
      let (values, rest) ← readFields knot more rest
      return ((name, value) :: values, rest)

def readVariant (knot : Reader Datum) (alternatives : List (String × Shape)) : Reader Datum :=
  fun input => do
    let (position, rest) ← readWord 4 input
    match payloadReader knot alternatives position with
    | some (name, payload) =>
        let (value, rest) ← payload rest
        return (.variant (UInt32.ofNat position) name value, rest)
    | none => .error (.badVariant position alternatives.length)

def payloadReader (knot : Reader Datum) :
    List (String × Shape) → Nat → Option (String × Reader Datum)
  | [], _ => none
  | (name, shape) :: _, 0 => some (name, read knot shape)
  | _ :: more, position + 1 => payloadReader knot more position

end

/-- A snapshot holds fewer bytes than this, and so no list that there is no room to read back. -/
def sizeLimit : Nat := UInt64.size / 128

def ofDatum (datum : Datum) : Except Fault Snapshot :=
  let bytes := write datum
  if bytes.length < sizeLimit then .ok ⟨bytes⟩ else .error .capacityExceeded

/-- What is left over after the state is ignored. -/
def toDatum (shape : Shape) (snapshot : Snapshot) : Except SnapshotError Datum := do
  return (← read (fun _ => .error .exhausted) shape snapshot.bytes).1

def size (snapshot : Snapshot) : Nat := snapshot.bytes.length

def toHex (snapshot : Snapshot) : String := Text.toHex snapshot.bytes

def ofHex? (text : String) : Option Snapshot := (Text.bytesOfHex? text.toList).map .mk

end Snapshot

end TurnObligations
