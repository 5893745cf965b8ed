import TurnObligations.Json.Mismatch
import TurnObligations.Text.Bytes

/-!
Reading the lexical parts of JSON from the front of a text: words, strings, numbers, and whole values
to be passed over. A text that stops short is truncated; any other departure is malformed.
-/

namespace TurnObligations.Json

/-! ### Number literals: which value one has, and whether its magnitude fits a double -/

inductive Numeral where
  | integer (value : Int)
  | fraction (literal : List Char)

/-- `value` with its 53 leading binary digits, rounded to nearest and on a tie to even. -/
def roundToDouble (value : Nat) : Nat :=
  let excess := value.log2 + 1 - 53
  let unit := 1 <<< excess
  let kept := value / unit
  let remainder := value % unit
  let up := unit < 2 * remainder || (2 * remainder == unit && kept % 2 == 1)
  (if up && excess != 0 then kept + 1 else kept) * unit

/-- The least magnitude that rounds beyond the largest double. -/
def doubleBound : Nat := (1 <<< 1024) - (1 <<< 970)

/-- `significand · 10 ^ exponent`, each factor rounded to a double, is beyond the largest double. -/
def exceedsDouble (significand : Nat) (exponent : Int) : Bool :=
  significand != 0 && (308 < exponent || (0 ≤ exponent &&
    doubleBound ≤ roundToDouble significand * roundToDouble (Nat.pow 10 exponent.toNat)))

/-- The digits that still fit a 64-bit significand, and how many were left out. -/
def gatherDigits : Nat → List Char → Nat × Nat
  | significand, [] => (significand, 0)
  | significand, digit :: rest =>
      let next := significand * 10 + (digit.toNat - 48)
      if next < UInt64.size then gatherDigits next rest else (significand, rest.length + 1)

def literalExceeds (digits places : List Char) (negativeExponent : Bool) (exponent : List Char) :
    Bool :=
  let (whole, omitted) := gatherDigits 0 digits
  let (significand, dropped) := gatherDigits whole places
  let shift : Int := omitted - (places.length - dropped : Nat)
  let power := Nat.ofDigitChars 10 exponent 0
  if power < 1 <<< 31 then
    exceedsDouble significand (if negativeExponent then shift - power else shift + power)
  else significand != 0 && !negativeExponent

def integerNumeral (negative : Bool) (digits : List Char) : Numeral :=
  let value := Nat.ofDigitChars 10 digits 0
  if negative then
    if 0 < value && value ≤ UInt64.size / 2 then .integer (-value) else .fraction ('-' :: digits)
  else if value < UInt64.size then .integer value
  else .fraction digits

/-! ### Words -/

abbrev Reader (α : Type) := List Char → Except ReadError (α × List Char)

def isBlank (c : Char) : Bool := c == ' ' || c == '\n' || c == '\t' || c == '\r'

def skipBlanks (input : List Char) : List Char := input.dropWhile isBlank

def expectWord : (word input : List Char) → Except ReadError (List Char)
  | [], input => .ok input
  | _ :: _, [] => .error .truncated
  | c :: word, d :: input => if c = d then expectWord word input else .error .malformed

/-! ### Strings -/

/-- Four hexadecimal digits. Fewer than four bytes before the end count as truncated. -/
def readHex : Reader Nat
  | a :: b :: c :: d :: rest =>
      match Text.hexValue? a, Text.hexValue? b, Text.hexValue? c, Text.hexValue? d with
      | some a, some b, some c, some d => .ok (((a * 16 + b) * 16 + c) * 16 + d, rest)
      | _, _, _, _ => .error .malformed
  | short =>
      if (String.ofList short).utf8ByteSize < 4 then .error .truncated else .error .malformed

def simpleEscape? (c : Char) : Option Char :=
  if c = '"' || c = '\\' || c = '/' then some c
  else if c = 'b' then some '\x08'
  else if c = 'f' then some '\x0c'
  else if c = 'n' then some '\n'
  else if c = 'r' then some '\r'
  else if c = 't' then some '\t'
  else none

def readLowSurrogate (high : Nat) : Reader Char
  | [] | ['\\'] => .error .truncated
  | '\\' :: 'u' :: rest => do
      let (low, rest) ← readHex rest
      if 0xDC00 ≤ low && low ≤ 0xDFFF then
        return (Char.ofNat ((high - 0xD800) * 0x400 + (low - 0xDC00) + 0x10000), rest)
      else .error .malformed
  | _ => .error .malformed

def readEscape : Reader Char
  | [] => .error .truncated
  | 'u' :: rest => do
      let (unit, rest) ← readHex rest
      if 0xDC00 ≤ unit && unit ≤ 0xDFFF then .error .malformed
      else if 0xD800 ≤ unit && unit ≤ 0xDBFF then readLowSurrogate unit rest
      else return (Char.ofNat unit, rest)
  | c :: rest =>
      match simpleEscape? c with
      | some meant => .ok (meant, rest)
      | none => .error .malformed

def readChars : Nat → Reader (List Char)
  | _, [] => .error .truncated
  | _, '"' :: rest => .ok ([], rest)
  | 0, _ => .error .truncated
  | fuel + 1, '\\' :: rest => do
      let (c, rest) ← readEscape rest
      let (more, rest) ← readChars fuel rest
      return (c :: more, rest)
  | fuel + 1, c :: rest =>
      if c.toNat < 32 then .error .malformed
      else do
        let (more, rest) ← readChars fuel rest
        return (c :: more, rest)

def readString : Reader String := fun input => do
  let (chars, rest) ← readChars input.length input
  return (String.ofList chars, rest)

def skipEscape : List Char → Except ReadError (List Char)
  | [] => .error .truncated
  | 'u' :: rest => do return (← readHex rest).2
  | c :: rest => if (simpleEscape? c).isSome then .ok rest else .error .malformed

def skipChars : Nat → List Char → Except ReadError (List Char)
  | _, [] => .error .truncated
  | _, '"' :: rest => .ok rest
  | 0, _ => .error .truncated
  | fuel + 1, '\\' :: rest => do skipChars fuel (← skipEscape rest)
  | fuel + 1, c :: rest => if c.toNat < 32 then .error .malformed else skipChars fuel rest

def skipString (input : List Char) : Except ReadError (List Char) :=
  skipChars input.length input

/-! ### Numbers -/

def spanDigits (input : List Char) : List Char × List Char :=
  (input.takeWhile Char.isDigit, input.dropWhile Char.isDigit)

def readDigits : Reader (List Char)
  | [] => .error .truncated
  | input =>
      match spanDigits input with
      | ([], _) | ('0' :: _ :: _, _) => .error .malformed
      | (digits, rest) => .ok (digits, rest)

def isExponentMark (c : Char) : Bool := c == 'e' || c == 'E'

def readExponent : Reader (Bool × List Char × List Char) := fun input =>
  let (sign, unsigned) := match input with
    | '+' :: rest => (['+'], rest)
    | '-' :: rest => (['-'], rest)
    | _ => ([], input)
  match spanDigits unsigned with
  | ([], []) => .error .truncated
  | ([], _ :: _) => .error .malformed
  | (digits, rest) => .ok ((sign == ['-'], digits, sign ++ digits), rest)

def readFraction (negative : Bool) (digits : List Char) : Reader Numeral := fun input => do
  let (places, afterPlaces) ← match input with
    | '.' :: rest =>
        match spanDigits rest with
        | ([], []) => .error .truncated
        | ([], _ :: _) => .error .malformed
        | spanned => .ok spanned
    | _ => .ok ([], input)
  let (negativeExponent, power, exponent, rest) ← match afterPlaces with
    | mark :: rest =>
        if isExponentMark mark then do
          let ((negativeExponent, power, written), rest) ← readExponent rest
          pure (negativeExponent, power, mark :: written, rest)
        else pure (false, [], [], afterPlaces)
    | [] => pure (false, [], [], [])
  if places.isEmpty && exponent.isEmpty && !literalExceeds digits [] false [] then
    return (integerNumeral negative digits, rest)
  else if literalExceeds digits places negativeExponent power then .error .malformed
  else
    let sign := if negative then ['-'] else []
    let point := if places.isEmpty then [] else '.' :: places
    return (.fraction (sign ++ digits ++ point ++ exponent), rest)

def readNumeral (negative : Bool) : Reader Numeral := fun input => do
  let (digits, rest) ← readDigits input
  readFraction negative digits rest

/-- Passes over a number, after its sign, whatever its magnitude. One that stops short is
malformed. -/
def skipNumeral (input : List Char) : Except ReadError (List Char) := do
  let wholeRest ← match spanDigits input with
    | ([], _) | ('0' :: _ :: _, _) => .error .malformed
    | (_, rest) => .ok rest
  let placesRest ← match wholeRest with
    | '.' :: rest =>
        match spanDigits rest with
        | ([], _) => .error .malformed
        | (_, rest) => .ok rest
    | _ => .ok wholeRest
  match placesRest with
  | mark :: rest =>
      if isExponentMark mark then
        match readExponent rest with
        | .ok (_, rest) => .ok rest
        | .error _ => .error .malformed
      else .ok placesRest
  | [] => .ok []

/-! ### Whole values passed over -/

inductive Bracket where
  | square
  | curly
deriving DecidableEq

def Bracket.closing : Bracket → Char
  | .square => ']'
  | .curly => '\x7d'

/-- Passes over the head of a value. The flag tells a bracket just opened from a whole value. -/
def skipHead (opened : List Bracket) (input : List Char) :
    Except ReadError (Bool × List Bracket × List Char) :=
  match skipBlanks input with
  | [] => .error .truncated
  | 'n' :: rest => do return (false, opened, ← expectWord ['u', 'l', 'l'] rest)
  | 't' :: rest => do return (false, opened, ← expectWord ['r', 'u', 'e'] rest)
  | 'f' :: rest => do return (false, opened, ← expectWord ['a', 'l', 's', 'e'] rest)
  | '-' :: rest => do return (false, opened, ← skipNumeral rest)
  | '"' :: rest => do return (false, opened, ← skipString rest)
  | '[' :: rest => .ok (true, .square :: opened, rest)
  | '\x7b' :: rest => .ok (true, .curly :: opened, rest)
  | c :: rest =>
      if c.isDigit then do return (false, opened, ← skipNumeral (c :: rest)) else .error .malformed

def skipKey (bracket : Bracket) (input : List Char) : Except ReadError (List Char) :=
  match bracket with
  | .square => .ok input
  | .curly =>
      match skipBlanks input with
      | [] => .error .truncated
      | '"' :: rest => do
          match skipBlanks (← skipString rest) with
          | [] => .error .truncated
          | ':' :: rest => .ok rest
          | _ => .error .malformed
      | _ => .error .malformed

/-- Passes over what is left of the open brackets. `fresh` says that the innermost one has just been
opened, so that it may close at once but not go on after a comma. -/
def skipOpened : Nat → (fresh : Bool) → List Bracket → List Char → Except ReadError (List Char)
  | _, _, [], input => .ok input
  | 0, _, _ :: _, _ => .error .truncated
  | fuel + 1, fresh, bracket :: outer, input =>
      match skipBlanks input with
      | [] => .error .truncated
      | c :: rest =>
          if c = bracket.closing then skipOpened fuel false outer rest
          else if fresh then do
            let (fresh, opened, rest) ← skipHead (bracket :: outer) (← skipKey bracket (c :: rest))
            skipOpened fuel fresh opened rest
          else if c = ',' then do
            let (fresh, opened, rest) ← skipHead (bracket :: outer) (← skipKey bracket rest)
            skipOpened fuel fresh opened rest
          else .error .malformed

def skipValue (input : List Char) : Except ReadError (List Char) := do
  let (fresh, opened, rest) ← skipHead [] input
  skipOpened rest.length fresh opened rest

end TurnObligations.Json
