import TurnObligations.Text.Quoted

/-!
Why a JSON text or value is not of the expected form.
-/

namespace TurnObligations

inductive Found where
  | null
  | bool (value : Bool)
  | integer (value : Int)
  | fraction (literal : String)
  | text (value : String)
  | sequence
  | map
  | unitVariant
deriving DecidableEq, Repr

def Found.describe : Found → String
  | .null => "null"
  | .bool value => s!"boolean `{value}`"
  | .integer value => s!"integer `{value}`"
  | .fraction literal => s!"floating point `{literal}`"
  | .text value => s!"string {Text.quoted value}"
  | .sequence => "sequence"
  | .map => "map"
  | .unitVariant => "unit variant"

inductive Mismatch where
  | wrongType (found : Found) (expected : String)
  | wrongValue (found : Found) (expected : String)
  | shortArray (length : Nat) (record : String) (fields : Nat)
  | longArray (length : Nat)
  | missingField (name : String)
  | duplicateField (name : String)
  | unknownVariant (name : String) (variants : List String)
  | unknownAction (name : String)
deriving DecidableEq, Repr

namespace Mismatch

def listVariants : List String → String
  | [] => "there are no variants"
  | [only] => s!"`{only}`"
  | [first, second] => s!"`{first}` or `{second}`"
  | many => "one of " ++ ", ".intercalate (many.map fun name => s!"`{name}`")

def message : Mismatch → String
  | .wrongType found expected => s!"invalid type: {found.describe}, expected {expected}"
  | .wrongValue found expected => s!"invalid value: {found.describe}, expected {expected}"
  | .shortArray length name 1 =>
      s!"invalid length {length}, expected struct {name} with 1 element"
  | .shortArray length name fields =>
      s!"invalid length {length}, expected struct {name} with {fields} elements"
  | .longArray length => s!"invalid length {length}, expected fewer elements in array"
  | .missingField name => s!"missing field `{name}`"
  | .duplicateField name => s!"duplicate field `{name}`"
  | .unknownVariant name variants =>
      s!"unknown variant `{name}`, expected {listVariants variants}"
  | .unknownAction name => s!"unknown action type `{name}`"

end Mismatch

/-- Why a text is not read: it breaks the grammar, it ends too soon, or it says something else than
what was asked for. -/
inductive ReadError where
  | malformed
  | truncated
  | mismatch (cause : Mismatch)
deriving DecidableEq, Repr

def ReadError.message : ReadError → String
  | .malformed => "not a JSON text"
  | .truncated => "the text ends too soon"
  | .mismatch cause => cause.message

end TurnObligations
