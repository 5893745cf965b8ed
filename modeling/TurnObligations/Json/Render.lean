import TurnObligations.Text.Bytes

/-!
JSON values and their compact written form: no blanks, characters outside ASCII as they are. Numbers
of 64 bits are integers; any other number is kept as it was written. An object keeps its entries in
order of appearance, repeated keys included.
-/

namespace TurnObligations

inductive Json where
  | null
  | bool (value : Bool)
  | integer (value : Int)
  | fraction (literal : String)
  | text (value : String)
  | array (items : List Json)
  | object (entries : List (String × Json))

namespace Json

/-- The value an object ends up holding under a key: of repeated entries the last counts. -/
def field? (key : String) : Json → Option Json
  | .object entries => (entries.reverse.find? fun entry => entry.1 == key).map (·.2)
  | _ => none

def escape (c : Char) : List Char :=
  if c = '"' then ['\\', '"']
  else if c = '\\' then ['\\', '\\']
  else if c = '\x08' then ['\\', 'b']
  else if c = '\x0c' then ['\\', 'f']
  else if c = '\n' then ['\\', 'n']
  else if c = '\r' then ['\\', 'r']
  else if c = '\t' then ['\\', 't']
  else if c.toNat < 32 then
    ['\\', 'u', '0', '0', Text.hexDigit (c.toNat / 16), Text.hexDigit (c.toNat % 16)]
  else [c]

def quote (text : String) : List Char :=
  '"' :: (text.toList.flatMap escape ++ ['"'])

def renderInteger : Int → List Char
  | .ofNat value => Nat.toDigits 10 value
  | .negSucc value => '-' :: Nat.toDigits 10 (value + 1)

mutual

def render : Json → List Char
  | .null => ['n', 'u', 'l', 'l']
  | .bool true => ['t', 'r', 'u', 'e']
  | .bool false => ['f', 'a', 'l', 's', 'e']
  | .integer value => renderInteger value
  | .fraction literal => literal.toList
  | .text value => quote value
  | .array [] => ['[', ']']
  | .array (first :: rest) => '[' :: (render first ++ renderItems rest)
  | .object [] => ['\x7b', '\x7d']
  | .object ((key, value) :: rest) =>
      '\x7b' :: (quote key ++ ':' :: (render value ++ renderEntries rest))

def renderItems : List Json → List Char
  | [] => [']']
  | item :: rest => ',' :: (render item ++ renderItems rest)

def renderEntries : List (String × Json) → List Char
  | [] => ['\x7d']
  | (key, value) :: rest =>
      ',' :: (quote key ++ ':' :: (render value ++ renderEntries rest))

end

def toText (json : Json) : String := String.ofList json.render

end Json

end TurnObligations
