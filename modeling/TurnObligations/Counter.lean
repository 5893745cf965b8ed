import TurnObligations.Fault

/-!
Arithmetic on counters of fixed width, and places walked in a round. A result that does not fit is a
fault, never a wrapped value.
-/

namespace TurnObligations

namespace Counter

def add8 (left right : UInt8) : Except Fault UInt8 :=
  if left.toNat + right.toNat < UInt8.size then .ok (left + right) else .error .additionOverflow

def add32 (left right : UInt32) : Except Fault UInt32 :=
  if left.toNat + right.toNat < UInt32.size then .ok (left + right) else .error .additionOverflow

def advance (index : UInt64) (count : Nat) : Except Fault UInt64 :=
  if index.toNat + count < UInt64.size then .ok (UInt64.ofNat (index.toNat + count))
  else .error .additionOverflow

def sub32 (left right : UInt32) : Except Fault UInt32 :=
  if right ≤ left then .ok (left - right) else .error .subtractionOverflow

def addSigned (left right : Int64) : Except Fault Int64 :=
  let sum := left.toInt + right.toInt
  if Int64.minValue.toInt ≤ sum && sum ≤ Int64.maxValue.toInt then .ok (left + right)
  else .error .additionOverflow

theorem toNat_of_add8 {left right sum : UInt8} (added : add8 left right = .ok sum) :
    sum.toNat = left.toNat + right.toNat := by
  unfold add8 at added
  split at added
  · next fits =>
      cases added
      simp only [UInt8.size] at fits
      simp only [UInt8.toNat_add]
      omega
  · cases added

theorem toNat_of_add32 {left right sum : UInt32} (added : add32 left right = .ok sum) :
    sum.toNat = left.toNat + right.toNat := by
  unfold add32 at added
  split at added
  · next fits =>
      cases added
      simp only [UInt32.size] at fits
      simp only [UInt32.toNat_add]
      omega
  · cases added

theorem toNat_of_advance {index next : UInt64} {count : Nat}
    (advanced : advance index count = .ok next) : next.toNat = index.toNat + count := by
  unfold advance at advanced
  split at advanced
  · next fits => cases advanced; exact UInt64.toNat_ofNat_of_lt fits
  · cases advanced

end Counter

namespace Track

/-! A walker who has not set out yet has no position and enters at the first place. -/

variable {α : Type}

def holds (track : List α) (position : Option UInt64) : Bool :=
  position.all fun index => index.toNat < track.length

def locate (track : List α) : (position : Option UInt64) → Except Fault (Option α)
  | none => .ok none
  | some index => do return some (← fetch track index.toNat)

/-- The index after a position on a round of `length` places. -/
def following (length : Nat) : (position : Option UInt64) → Except Fault UInt64
  | none => .ok 0
  | some index => do
      let next ← Counter.advance index 1
      if length = 0 then .error .zeroDivisor else return UInt64.ofNat (next.toNat % length)

def advance (track : List α) (position : Option UInt64) : Except Fault (UInt64 × α) := do
  let index ← following track.length position
  return (index, ← fetch track index.toNat)

end Track

end TurnObligations
