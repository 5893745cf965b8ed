import TurnObligations.Json.Scan
import TurnObligations.Json.Render

/-!
Reading JSON values from text, and the walks along arrays and objects that every reader shares.
-/

namespace TurnObligations.Json

def readItems {α : Type} (item : Reader α) : Nat → (first : Bool) → Reader (List α)
  | 0, _, _ => .error .truncated
  | fuel + 1, first, input =>
      match skipBlanks input with
      | [] => .error .truncated
      | ']' :: rest => .ok ([], rest)
      | c :: rest => do
          let start ← if first then pure (c :: rest)
            else if c = ',' then
              match skipBlanks rest with
              | [] => .error .truncated
              | ']' :: _ => .error .malformed
              | next => pure next
            else .error .malformed
          let (head, rest) ← item start
          let (tail, rest) ← readItems item fuel false rest
          return (head :: tail, rest)

/-- The entries of an object after its opening brace, up to and with the closing one. `entry` is
given each key with the text that follows it. -/
def readEntries {σ : Type} (entry : σ → String → List Char → Except ReadError (σ × List Char)) :
    Nat → (first : Bool) → σ → List Char → Except ReadError (σ × List Char)
  | 0, _, _, _ => .error .truncated
  | fuel + 1, first, state, input =>
      match skipBlanks input with
      | [] => .error .truncated
      | '\x7d' :: rest => .ok (state, rest)
      | c :: rest => do
          let start ← if first then pure (c :: rest)
            else if c = ',' then
              match skipBlanks rest with
              | [] => .error .truncated
              | next => pure next
            else .error .malformed
          match start with
          | '"' :: rest =>
              let (key, rest) ← readString rest
              let (state, rest) ← entry state key rest
              readEntries entry fuel false state rest
          | _ => .error .malformed

def expectColon (input : List Char) : Except ReadError (List Char) :=
  match skipBlanks input with
  | [] => .error .truncated
  | ':' :: rest => .ok rest
  | _ => .error .malformed

def ofNumeral : Numeral → Json
  | .integer value => .integer value
  | .fraction literal => .fraction (String.ofList literal)

/-- A value whose brackets, if any, hold values that `inner` reads. -/
def parseWith (inner : Option (Reader Json)) : Reader Json := fun input =>
  match skipBlanks input with
  | [] => .error .truncated
  | 'n' :: rest => do return (.null, ← expectWord ['u', 'l', 'l'] rest)
  | 't' :: rest => do return (.bool true, ← expectWord ['r', 'u', 'e'] rest)
  | 'f' :: rest => do return (.bool false, ← expectWord ['a', 'l', 's', 'e'] rest)
  | '-' :: rest => do
      let (numeral, rest) ← readNumeral true rest
      return (ofNumeral numeral, rest)
  | '"' :: rest => do
      let (value, rest) ← readString rest
      return (.text value, rest)
  | '[' :: rest =>
      match inner with
      | none => .error .malformed
      | some item => do
          let (items, rest) ← readItems item (rest.length + 1) true rest
          return (.array items, rest)
  | '\x7b' :: rest =>
      match inner with
      | none => .error .malformed
      | some item => do
          let entry (entries : List (String × Json)) (key : String) (input : List Char) := do
            let (value, rest) ← item (← expectColon input)
            return ((key, value) :: entries, rest)
          let (entries, rest) ← readEntries entry (rest.length + 1) true [] rest
          return (.object entries.reverse, rest)
  | c :: rest =>
      if c.isDigit then do
        let (numeral, rest) ← readNumeral false (c :: rest)
        return (ofNumeral numeral, rest)
      else .error .malformed

/-- A value with at most `depth` brackets open at once. -/
def parseNested : (depth : Nat) → Reader Json
  | 0 => parseWith none
  | depth + 1 => parseWith (some (parseNested depth))

def finish {α : Type} (read : Except ReadError (α × List Char)) : Except ReadError α :=
  match read with
  | .error error => .error error
  | .ok (value, rest) => if (skipBlanks rest).isEmpty then .ok value else .error .malformed

def maxDepth : Nat := 127

def parse (text : String) : Except ReadError Json := finish (parseNested maxDepth text.toList)

end TurnObligations.Json
