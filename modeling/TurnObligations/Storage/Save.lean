import TurnObligations.Fault
import TurnObligations.Json.Render
import TurnObligations.Storage.Bytes
import TurnObligations.Storage.Text
import TurnObligations.Storage.Value

/-!
Saving any storable state as JSON or as a snapshot, and reading it back.
-/

namespace TurnObligations

inductive StorageError where
  | json (error : ReadError)
  | snapshot (error : SnapshotError)
  | corrupt (cause : Corruption)
deriving DecidableEq, Repr

def StorageError.message : StorageError → String
  | .json error => "malformed JSON: " ++ error.message
  | .snapshot error => "snapshot encoding failed: " ++ error.message
  | .corrupt cause => "corrupt obligation state: " ++ cause.message

namespace Storage

variable {α : Type} [Storable α]

def toJson (value : α) : Json := (Storable.toDatum value).toJson

def toText (value : α) : String := (toJson value).toText

/-- A datum that no value has counts as malformed. -/
def rebuild (read : Except ReadError Datum) : Except StorageError α :=
  match read with
  | .error error => .error (.json error)
  | .ok datum =>
      match Storable.ofDatum? datum with
      | some value => .ok value
      | none => .error (.json .malformed)

def ofText? (text : String) : Except StorageError α :=
  rebuild (readDatum (Storable.shape α) text)

def ofJson? (json : Json) : Except StorageError α := rebuild (ofJson (Storable.shape α) json)

end Storage

/-- Storable states with an invariant that a saved one must satisfy to be accepted. -/
class Saved (α : Type) extends Storable α where
  validate : α → Except Corruption Unit

namespace Saved

variable {α : Type} [Saved α]

def check (read : Except StorageError α) : Except StorageError α := do
  let value ← read
  match validate value with
  | .ok () => .ok value
  | .error cause => .error (.corrupt cause)

def ofText? (text : String) : Except StorageError α := check (Storage.ofText? text)

def ofJson? (json : Json) : Except StorageError α := check (Storage.ofJson? json)

end Saved

namespace Snapshot

variable {α : Type} [Storable α]

def encode (value : α) : Except Fault Snapshot := ofDatum (Storable.toDatum value)

/-- A datum that no value has counts as one whose bytes ran out. -/
def decode (snapshot : Snapshot) : Except StorageError α :=
  match snapshot.toDatum (Storable.shape α) with
  | .error error => .error (.snapshot error)
  | .ok datum =>
      match Storable.ofDatum? datum with
      | some value => .ok value
      | none => .error (.snapshot .exhausted)

end Snapshot

end TurnObligations
