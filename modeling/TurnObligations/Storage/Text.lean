import TurnObligations.Storage.Read

/-!
Reading stored states from JSON text in one pass: the first problem in the text is the one reported,
whether it breaks the grammar or the shape. A record may also be an array of its fields in order.
-/

namespace TurnObligations.Storage

open Json (Reader skipBlanks expectWord readString readNumeral readItems readEntries expectColon)

def ofNumeral (shape : Shape) : Json.Numeral → Except ReadError Datum
  | .integer value => ofInteger value shape
  | .fraction literal => wrongType (.fraction (String.ofList literal)) shape

def foundNumeral : Json.Numeral → Found
  | .integer value => .integer value
  | .fraction literal => .fraction (String.ofList literal)

/-- The complaint about a value of another type than expected. Its scalars are still read, so that a
broken one is reported as such. -/
def refuse {α : Type} (expected : String) (input : List Char) : Except ReadError α :=
  match input with
  | 'n' :: rest => do
      let _ ← expectWord ['u', 'l', 'l'] rest
      mismatch (.wrongType .null expected)
  | 't' :: rest => do
      let _ ← expectWord ['r', 'u', 'e'] rest
      mismatch (.wrongType (.bool true) expected)
  | 'f' :: rest => do
      let _ ← expectWord ['a', 'l', 's', 'e'] rest
      mismatch (.wrongType (.bool false) expected)
  | '-' :: rest => do
      let (numeral, _) ← readNumeral true rest
      mismatch (.wrongType (foundNumeral numeral) expected)
  | '"' :: rest => do
      let (text, _) ← readString rest
      mismatch (.wrongType (.text text) expected)
  | '[' :: _ => mismatch (.wrongType .sequence expected)
  | '\x7b' :: _ => mismatch (.wrongType .map expected)
  | c :: rest =>
      if c.isDigit then do
        let (numeral, _) ← readNumeral false (c :: rest)
        mismatch (.wrongType (foundNumeral numeral) expected)
      else .error .malformed
  | [] => .error .truncated

def readBool : Reader Datum := fun input =>
  match skipBlanks input with
  | 't' :: rest => do return (.bool true, ← expectWord ['r', 'u', 'e'] rest)
  | 'f' :: rest => do return (.bool false, ← expectWord ['a', 'l', 's', 'e'] rest)
  | other => refuse Shape.bool.expectation other

def readNumber (shape : Shape) : Reader Datum := fun input =>
  match skipBlanks input with
  | '-' :: rest => do
      let (numeral, rest) ← readNumeral true rest
      return (← ofNumeral shape numeral, rest)
  | c :: rest =>
      if c.isDigit then do
        let (numeral, rest) ← readNumeral false (c :: rest)
        return (← ofNumeral shape numeral, rest)
      else refuse shape.expectation (c :: rest)
  | [] => .error .truncated

def readText : Reader String := fun input =>
  match skipBlanks input with
  | '"' :: rest => readString rest
  | other => refuse "a string" other

def closeArray (input : List Char) : Except ReadError (List Char) :=
  match skipBlanks input with
  | [] => .error .truncated
  | ']' :: rest => .ok rest
  | _ => .error .malformed

def readFieldItems (inner : Shape → Reader Datum) (name : String) (fields : List (String × Shape)) :
    (position : Nat) → List (String × Shape) → Reader (List (String × Datum))
  | _, [], input => do return ([], ← closeArray input)
  | position, (field, shape) :: more, input =>
      match skipBlanks input with
      | [] => .error .truncated
      | ']' :: _ => mismatch (.shortArray position name fields.length)
      | c :: rest => do
          let start ← if position = 0 then pure (c :: rest)
            else if c = ',' then
              match skipBlanks rest with
              | [] => .error .truncated
              | ']' :: _ => .error .malformed
              | next => pure next
            else .error .malformed
          let (value, rest) ← inner shape start
          let (values, rest) ← readFieldItems inner name fields (position + 1) more rest
          return ((field, value) :: values, rest)

/-- One entry of a record in object form. Unknown keys are passed over. -/
def readField (inner : Shape → Reader Datum) (fields : List (String × Shape)) (slots : Slots)
    (key : String) (input : List Char) : Except ReadError (Slots × List Char) :=
  match fields.lookup key with
  | none => do return (slots, ← Json.skipValue (← expectColon input))
  | some shape =>
      if (slots.lookup key).isSome then mismatch (.duplicateField key)
      else do
        let (value, rest) ← inner shape (← expectColon input)
        return ((key, value) :: slots, rest)

def closeObject (input : List Char) : Except ReadError (List Char) :=
  match skipBlanks input with
  | [] => .error .truncated
  | '\x7d' :: rest => .ok rest
  | _ => .error .malformed

def refuseVariant {α : Type} : List Char → Except ReadError α
  | [] => .error .truncated
  | _ => .error .malformed

def readName : Reader String := fun input =>
  match skipBlanks input with
  | [] => .error .truncated
  | '"' :: rest => readString rest
  | _ => .error .malformed

/-- `inner` reads one level deeper; where there is none, no bracket may open. -/
def readVariant (inner : Option (Shape → Reader Datum)) (alternatives : Alternatives) :
    Reader Datum := fun input =>
  match skipBlanks input with
  | '\x7b' :: rest =>
      match inner with
      | none => .error .malformed
      | some inner => do
          let (name, rest) ← readName rest
          let (position, payload) ← chooseVariant alternatives name
          let (value, rest) ← inner payload (← expectColon rest)
          return (.variant position name value, ← closeObject rest)
  | '"' :: rest => do
      let (name, rest) ← readString rest
      return (← bareVariant alternatives name, rest)
  | other => refuseVariant other

def readUnit : Reader Datum := fun input =>
  match skipBlanks input with
  | 'n' :: rest => do return (.unit, ← expectWord ['u', 'l', 'l'] rest)
  | other => refuse Shape.unit.expectation other

def readLabel (inner : Option (Shape → Reader Datum)) (names : List String) : Reader Datum :=
  fun input =>
    match skipBlanks input with
    | '\x7b' :: rest =>
        match inner with
        | none => .error .malformed
        | some inner => do
            let (name, rest) ← readName rest
            let label ← chooseLabel names name
            let (_, rest) ← inner .unit (← expectColon rest)
            return (label, ← closeObject rest)
    | '"' :: rest => do
        let (name, rest) ← readString rest
        return (← chooseLabel names name, rest)
    | other => refuseVariant other

def readWith (inner : Option (Alternatives → Shape → Reader Datum)) (scope : Alternatives) :
    Shape → Reader Datum
  | .unit => readUnit
  | .bool => readBool
  | .byte => readNumber .byte
  | .count => readNumber .count
  | .index => readNumber .index
  | .signed => readNumber .signed
  | .word known => fun input => do
      let (text, rest) ← readText input
      return (← ofWord known text, rest)
  | .option item => fun input =>
      match skipBlanks input with
      | 'n' :: rest => do return (.absent, ← expectWord ['u', 'l', 'l'] rest)
      | other => do
          let (value, rest) ← readWith inner scope item other
          return (.present value, rest)
  | .list item | .reserved _ item => fun input =>
      match skipBlanks input, inner with
      | '[' :: _, none => .error .malformed
      | '[' :: rest, some inner => do
          let (items, rest) ← readItems (inner scope item) (rest.length + 1) true rest
          return (.list items, rest)
      | other, _ => refuse "a sequence" other
  | .record name fields => fun input =>
      match skipBlanks input, inner with
      | '[' :: _, none | '\x7b' :: _, none => .error .malformed
      | '[' :: rest, some inner => do
          let (values, rest) ← readFieldItems (inner scope) name fields 0 fields rest
          return (.record values, rest)
      | '\x7b' :: rest, some inner => do
          let (slots, rest) ←
            readEntries (readField (inner scope) fields) (rest.length + 1) true [] rest
          return (.record (← assemble slots fields), rest)
      | other, _ => refuse ("struct " ++ name) other
  | .variants alternatives => readVariant (inner.map (· scope)) alternatives
  | .labels names => readLabel (inner.map (· scope)) names
  | .recursive alternatives => readVariant (inner.map (· alternatives)) alternatives
  | .recur => readVariant (inner.map (· scope)) scope

def readNested : (depth : Nat) → Alternatives → Shape → Reader Datum
  | 0 => readWith none
  | depth + 1 => readWith (some (readNested depth))

def readDatum (shape : Shape) (text : String) : Except ReadError Datum :=
  Json.finish (readNested Json.maxDepth [] shape text.toList)

end TurnObligations.Storage
