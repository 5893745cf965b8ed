import TurnObligations.Storage.Read

/-!
Reading stored states from JSON values. Every value becomes its own reader of shapes, built from the
readers of its parts; an object is visited in the order of its keys.
-/

namespace TurnObligations.Storage

/-- How a value reads as a shape, given what `recur` stands for. -/
abbrev ValueReader := Alternatives → Shape → Except ReadError Datum

def ofNull : Shape → Except ReadError Datum
  | .unit => .ok .unit
  | .option _ => .ok .absent
  | shape => wrongType .null shape

def ofFraction (literal : String) (shape : Shape) : Except ReadError Datum :=
  wrongType (.fraction literal) shape

def ofText (text : String) (scope : Alternatives) : Shape → Except ReadError Datum
  | .option item => do return .present (← ofText text scope item)
  | .word known => ofWord known text
  | .labels names => chooseLabel names text
  | .variants alternatives | .recursive alternatives => bareVariant alternatives text
  | .recur => bareVariant scope text
  | shape => wrongType (.text text) shape

def ofFieldItems (scope : Alternatives) (name : String) (fields : List (String × Shape)) :
    (position : Nat) → List (String × Shape) → List ValueReader →
      Except ReadError (List (String × Datum))
  | _, [], [] => .ok []
  | position, [], left => mismatch (.longArray (position + left.length))
  | position, _ :: _, [] => mismatch (.shortArray position name fields.length)
  | position, (field, shape) :: more, item :: items => do
      let value ← item scope shape
      return (field, value) :: (← ofFieldItems scope name fields (position + 1) more items)

def ofItems (items : List ValueReader) (scope : Alternatives) : Shape → Except ReadError Datum
  | .option item => do return .present (← ofItems items scope item)
  | .list item | .reserved _ item => do
      return .list (← items.mapM fun read => read scope item)
  | .record name fields => do return .record (← ofFieldItems scope name fields 0 fields items)
  | shape => wrongType .sequence shape

/-- The entries that count: of those with one key the last. -/
def lastEntries {α : Type} : List (String × α) → List (String × α)
  | [] => []
  | entry :: rest =>
      if rest.any fun other => other.1 == entry.1 then lastEntries rest
      else entry :: lastEntries rest

def sortEntries {α : Type} (entries : List (String × α)) : List (String × α) :=
  (lastEntries entries).mergeSort fun left right => !(right.1 < left.1)

def ofFields (scope : Alternatives) (fields : List (String × Shape)) :
    List (String × ValueReader) → Except ReadError Slots
  | [] => .ok []
  | (key, read) :: rest =>
      match fields.lookup key with
      | none => ofFields scope fields rest
      | some shape => do
          let value ← read scope shape
          return (key, value) :: (← ofFields scope fields rest)

def onlyEntry (entries : List (String × ValueReader)) :
    Except ReadError (String × ValueReader) :=
  match entries with
  | [only] => .ok only
  | _ => mismatch (.wrongValue .map "map with a single key")

def ofVariant (alternatives : Alternatives) (entries : List (String × ValueReader)) :
    Except ReadError Datum := do
  let (name, read) ← onlyEntry entries
  let (position, payload) ← chooseVariant alternatives name
  return .variant position name (← read alternatives payload)

def ofEntries (entries : List (String × ValueReader)) (scope : Alternatives) :
    Shape → Except ReadError Datum
  | .option item => do return .present (← ofEntries entries scope item)
  | .record _ fields => do
      let slots ← ofFields scope fields entries
      return .record (← assemble slots fields)
  | .variants alternatives => do
      let (name, read) ← onlyEntry entries
      let (position, payload) ← chooseVariant alternatives name
      return .variant position name (← read scope payload)
  | .labels names => do
      let (name, read) ← onlyEntry entries
      let label ← chooseLabel names name
      let _ ← read scope .unit
      return label
  | .recursive alternatives => ofVariant alternatives entries
  | .recur => ofVariant scope entries
  | shape => wrongType .map shape

mutual

def valueReader : Json → ValueReader
  | .null => fun _ => ofNull
  | .bool value => fun _ => ofBool value
  | .integer value => fun _ => ofInteger value
  | .fraction literal => fun _ => ofFraction literal
  | .text value => ofText value
  | .array items => ofItems (itemReaders items)
  | .object entries => ofEntries (sortEntries (entryReaders entries))

def itemReaders : List Json → List ValueReader
  | [] => []
  | item :: rest => valueReader item :: itemReaders rest

def entryReaders : List (String × Json) → List (String × ValueReader)
  | [] => []
  | (key, value) :: rest => (key, valueReader value) :: entryReaders rest

end

def ofJson (shape : Shape) (json : Json) : Except ReadError Datum := valueReader json [] shape

end TurnObligations.Storage
