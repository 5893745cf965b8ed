import TurnObligations.Fault
import TurnObligations.Obligation.Basic

/-!
The invariant of a tree: counters in order, `current` indices in range, no resolved part still held.
The first violation in tree order is the one reported.
-/

namespace TurnObligations.Obligation

variable {Action : Type}

def checkNode : Obligation Action → Except Corruption Unit
  | .single .. => .ok ()
  | .choice branches => Corruption.unless (!branches.any isFinal) .choiceResolved
  | .any branches current => do
      Corruption.unless (!branches.any isFinal) .anyResolved
      match current with
      | none => .ok ()
      | some index =>
          Corruption.unless (index.toNat < branches.length) (.anyCurrent index branches.length)
  | .repeated atLeast atMost _ current count => do
      Corruption.unless (atLeast ≤ atMost) (.repeatBounds atLeast atMost)
      Corruption.unless (count ≤ atMost) (.repeatCount count atMost)
      match current with
      | none => .ok ()
      | some current =>
          Corruption.unless (!current.isFinal) .repeatCurrentFinal
          Corruption.unless (count < atMost) .repeatBeyond
  | .whenThen _ _ atLeast atMost whens thens current => do
      Corruption.unless (thens ≤ whens && whens ≤ atMost) (.whenThenCounters thens whens atMost)
      Corruption.unless (atLeast ≤ atMost) (.whenThenBounds atLeast atMost)
      Corruption.unless (!(current.any isFinal)) .whenThenCurrentFinal

mutual

def validate : Obligation Action → Except Corruption Unit
  | .single action mandatory completed => checkNode (.single action mandatory completed)
  | .choice branches => do
      checkNode (.choice branches)
      validateAll branches
  | .any branches current => do
      checkNode (.any branches current)
      validateAll branches
  | .repeated atLeast atMost template current count => do
      checkNode (.repeated atLeast atMost template current count)
      validate template
      validateCurrent current
  | .whenThen trigger consequence atLeast atMost whens thens current => do
      checkNode (.whenThen trigger consequence atLeast atMost whens thens current)
      validate trigger
      validate consequence
      validateCurrent current

def validateCurrent : Option (Obligation Action) → Except Corruption Unit
  | none => .ok ()
  | some current => validate current

def validateAll : List (Obligation Action) → Except Corruption Unit
  | [] => .ok ()
  | branch :: rest => do
      validate branch
      validateAll rest

end

end TurnObligations.Obligation
