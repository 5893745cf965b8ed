/-!
Bytes as text: pairs of hexadecimal digits, and where a sequence of bytes stops being UTF-8.
-/

namespace TurnObligations.Text

def hexDigit (value : Nat) : Char :=
  if value < 10 then Char.ofNat (48 + value) else Char.ofNat (87 + value)

def hexValue? (c : Char) : Option Nat :=
  if c.isDigit then some (c.toNat - 48)
  else if 'a' ≤ c && c ≤ 'f' then some (c.toNat - 87)
  else if 'A' ≤ c && c ≤ 'F' then some (c.toNat - 55)
  else none

def toHex (bytes : List UInt8) : String :=
  String.ofList (bytes.flatMap fun byte =>
    [hexDigit (byte.toNat / 16), hexDigit (byte.toNat % 16)])

def bytesOfHex? : List Char → Option (List UInt8)
  | [] => some []
  | [_] => none
  | high :: low :: rest => do
      return UInt8.ofNat (16 * (← hexValue? high) + (← hexValue? low)) :: (← bytesOfHex? rest)

/-! ### UTF-8 -/

/-- The first departure from UTF-8. Without a length, the bytes end inside a character. -/
structure Utf8Flaw where
  position : Nat
  length : Option Nat
deriving DecidableEq, Repr

def Utf8Flaw.message (flaw : Utf8Flaw) : String :=
  match flaw.length with
  | some length => s!"invalid utf-8 sequence of {length} bytes from index {flaw.position}"
  | none => s!"incomplete utf-8 byte sequence from index {flaw.position}"

def isTail (byte : UInt8) : Bool := 0x80 ≤ byte && byte ≤ 0xBF

def secondRange (lead : UInt8) : UInt8 × UInt8 :=
  if lead = 0xE0 then (0xA0, 0xBF)
  else if lead = 0xED then (0x80, 0x9F)
  else if lead = 0xF0 then (0x90, 0xBF)
  else if lead = 0xF4 then (0x80, 0x8F)
  else (0x80, 0xBF)

def isSecond (lead byte : UInt8) : Bool :=
  (secondRange lead).1 ≤ byte && byte ≤ (secondRange lead).2

def charWidth? (lead : UInt8) : Option Nat :=
  if lead < 0x80 then some 1
  else if 0xC2 ≤ lead && lead ≤ 0xDF then some 2
  else if 0xE0 ≤ lead && lead ≤ 0xEF then some 3
  else if 0xF0 ≤ lead && lead ≤ 0xF4 then some 4
  else none

/-- The flaw, if any, in the `owed` bytes that complete a character of which `seen` are read. -/
def tailFlaw? (position : Nat) : (seen owed : Nat) → List UInt8 → Option Utf8Flaw
  | _, 0, _ => none
  | _, _ + 1, [] => some ⟨position, none⟩
  | seen, owed + 1, byte :: rest =>
      if isTail byte then tailFlaw? position (seen + 1) owed rest
      else some ⟨position, some seen⟩

def charFlaw? (position : Nat) (lead : UInt8) (rest : List UInt8) : Option Utf8Flaw :=
  match charWidth? lead, rest with
  | none, _ => some ⟨position, some 1⟩
  | some 1, _ => none
  | some _, [] => some ⟨position, none⟩
  | some width, second :: rest =>
      if isSecond lead second then tailFlaw? position 2 (width - 2) rest
      else some ⟨position, some 1⟩

/-- `owed` counts the bytes still belonging to a character already checked. -/
def flawFrom (position owed : Nat) : List UInt8 → Option Utf8Flaw
  | [] => none
  | byte :: rest =>
      match owed with
      | owed + 1 => flawFrom (position + 1) owed rest
      | 0 =>
          match charFlaw? position byte rest with
          | some flaw => some flaw
          | none => flawFrom (position + 1) ((charWidth? byte).getD 1 - 1) rest

def utf8Flaw? (bytes : List UInt8) : Option Utf8Flaw := flawFrom 0 0 bytes

end TurnObligations.Text
