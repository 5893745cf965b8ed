/-!
How a call can fail. A refusal answers the player and leaves everything as it was; a fault is a
broken precondition of the program, after which nothing is promised; a corruption is what keeps a
saved state from being taken back.
-/

namespace TurnObligations

/-- Kinds of moves with a written name that reads back. -/
class NamedAction (Action : Type) where
  name : Action → String
  ofName? : String → Option Action
  ofName?_name : ∀ action, ofName? (name action) = some action

def NamedAction.sortedNames {Action : Type} [NamedAction Action] (actions : List Action) :
    List String :=
  (actions.map name).eraseDups.mergeSort fun left right => !(right < left)

/-! ### Faults and refusals -/

inductive Precondition where
  | choiceBranches
  | anyBranches
  | repeatBounds (atLeast atMost : UInt32)
  | repeatTemplate
  | whenThenBounds (atLeast atMost : UInt32)
  | whenThenTrigger
  | whenThenConsequence
  | someSeat
  | fewSeats
  | playersBetween (least most : Nat)
  | handLimitBetween (least most : Nat)
  | trailLocations
  | rubiesToWin
  | goodsCapacity
  | bazaarPlaces
deriving DecidableEq, Repr

def Precondition.message : Precondition → String
  | .choiceBranches => "Choice must have at least one branch"
  | .anyBranches => "Any must have at least one branch"
  | .repeatBounds atLeast atMost =>
      s!"Repeat needs at_least <= at_most, got {atLeast.toNat} > {atMost.toNat}"
  | .repeatTemplate => "Repeat template must not be final"
  | .whenThenBounds atLeast atMost =>
      s!"WhenThen needs at_least <= at_most, got {atLeast.toNat} > {atMost.toNat}"
  | .whenThenTrigger => "WhenThen trigger must not be final"
  | .whenThenConsequence => "WhenThen consequence must not be final"
  | .someSeat => "Must have at least 1 player"
  | .fewSeats => "At most 255 players supported"
  | .playersBetween least most => s!"Player count must be {least}-{most}"
  | .handLimitBetween least most => s!"Hand limit must be {least}-{most}"
  | .trailLocations => "Trail must have at least one location"
  | .rubiesToWin => "Rubies to win must be at least 1"
  | .goodsCapacity => "Goods capacity must be at least 1"
  | .bazaarPlaces => "Bazaar must have at least one place"

inductive Fault where
  | precondition (unmet : Precondition)
  | additionOverflow
  | subtractionOverflow
  | zeroDivisor
  | indexOutOfBounds (length index : Nat)
  | emptyRange
  | capacityExceeded
  | endlessSkip
deriving DecidableEq, Repr

def Fault.message : Fault → String
  | .precondition unmet => unmet.message
  | .additionOverflow => "attempt to add with overflow"
  | .subtractionOverflow => "attempt to subtract with overflow"
  | .zeroDivisor => "attempt to calculate the remainder with a divisor of zero"
  | .indexOutOfBounds length index =>
      s!"index out of bounds: the len is {length} but the index is {index}"
  | .emptyRange => "cannot sample empty range"
  | .capacityExceeded => "capacity overflow"
  | .endlessSkip => "skipping never empties the container"

def require (condition : Bool) (unmet : Precondition) : Except Fault Unit :=
  if condition then .ok () else .error (.precondition unmet)

inductive Refusal (Action : Type) where
  | cannotPerform (action : Action)
  | cannotSkip
  | nothingAvailable
  | mustChoose
deriving DecidableEq, Repr

def Refusal.message {Action : Type} [NamedAction Action] : Refusal Action → String
  | .cannotPerform action => "cannot perform action " ++ NamedAction.name action
  | .cannotSkip => "cannot skip: a mandatory or minimum requirement is unmet"
  | .nothingAvailable => "no action available"
  | .mustChoose => "must choose one of the remaining options before skipping"

inductive Stop (Action : Type) where
  | refused (refusal : Refusal Action)
  | faulted (fault : Fault)
deriving DecidableEq, Repr

namespace Stop

variable {Action α : Type}

def ofFault : Except Fault α → Except (Stop Action) α
  | .ok value => .ok value
  | .error fault => .error (.faulted fault)

@[simp] theorem ofFault_ok (value : α) :
    (ofFault (.ok value) : Except (Stop Action) α) = .ok value := rfl

@[simp] theorem ofFault_error (fault : Fault) :
    (ofFault (.error fault) : Except (Stop Action) α) = .error (.faulted fault) := rfl

instance : MonadLift (Except Fault) (Except (Stop Action)) where
  monadLift := ofFault

end Stop

/-- The element at an index that the caller vouches for. -/
def fetch {α : Type} (items : List α) (index : Nat) : Except Fault α :=
  match items[index]? with
  | some item => .ok item
  | none => .error (.indexOutOfBounds items.length index)

theorem fetch_ok {α : Type} (items : List α) (index : Nat) (bound : index < items.length) :
    fetch items index = .ok items[index] := by
  simp [fetch, bound]

/-! ### Corruption -/

inductive QueueSlot where
  | anyTime (index : UInt64)
  | queue (index : UInt64)
deriving DecidableEq, Repr

def QueueSlot.describe : QueueSlot → String
  | .anyTime index => s!"AnyTime({index.toNat})"
  | .queue index => s!"Queue({index.toNat})"

inductive Corruption where
  | choiceResolved
  | anyResolved
  | anyCurrent (index : UInt64) (branches : Nat)
  | repeatBounds (atLeast atMost : UInt32)
  | repeatCount (count atMost : UInt32)
  | repeatCurrentFinal
  | repeatBeyond
  | whenThenCounters (thens whens atMost : UInt32)
  | whenThenBounds (atLeast atMost : UInt32)
  | whenThenCurrentFinal
  | slotOutOfRange (slot : QueueSlot)
  | slotFinal
  | currentSeat
  | emptyTrail
  | herderPosition
  | noPlaces
  | merchantPlace
deriving DecidableEq, Repr

def Corruption.message : Corruption → String
  | .choiceResolved => "choice holds a resolved branch"
  | .anyResolved => "any holds a resolved branch"
  | .anyCurrent index branches =>
      s!"any current {index.toNat} out of range for {branches} branches"
  | .repeatBounds atLeast atMost =>
      s!"repeat atLeast {atLeast.toNat} exceeds atMost {atMost.toNat}"
  | .repeatCount count atMost => s!"repeat count {count.toNat} exceeds atMost {atMost.toNat}"
  | .repeatCurrentFinal => "repeat iteration in progress is already final"
  | .repeatBeyond => "repeat iteration in progress beyond atMost"
  | .whenThenCounters thens whens atMost =>
      s!"whenThen counters out of order: thens {thens.toNat} whens {whens.toNat} " ++
        s!"atMost {atMost.toNat}"
  | .whenThenBounds atLeast atMost =>
      s!"whenThen atLeast {atLeast.toNat} exceeds atMost {atMost.toNat}"
  | .whenThenCurrentFinal => "whenThen occurrence in progress is already final"
  | .slotOutOfRange slot => s!"queue current {slot.describe} out of range"
  | .slotFinal => "queue current is already final"
  | .currentSeat => "current player out of range"
  | .emptyTrail => "empty trail"
  | .herderPosition => "herder position off the trail"
  | .noPlaces => "bazaar has no places"
  | .merchantPlace => "merchant place outside the bazaar"

def Corruption.unless (condition : Bool) (corruption : Corruption) : Except Corruption Unit :=
  if condition then .ok () else .error corruption

end TurnObligations
