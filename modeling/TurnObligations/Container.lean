import TurnObligations.Obligation.Basic

/-!
What the turn rules ask of a collection of pending obligations, and what a move leaves behind for it.
A refused command returns no new collection, so the old one stays as it was.
-/

namespace TurnObligations

structure Outcome (Action : Type) where
  followUps : List (Obligation Action)
  undoAllowed : Bool
deriving DecidableEq

namespace Outcome

variable {Action : Type}

def none (undoAllowed : Bool) : Outcome Action := ⟨[], undoAllowed⟩

def followUp (obligation : Obligation Action) (undoAllowed : Bool) : Outcome Action :=
  ⟨[obligation], undoAllowed⟩

/-- Two moves in a row. Both must allow undo for the pair to allow it. -/
def andThen (first second : Outcome Action) : Outcome Action :=
  ⟨first.followUps ++ second.followUps, first.undoAllowed && second.undoAllowed⟩

def hasFollowUps (outcome : Outcome Action) : Bool := !outcome.followUps.isEmpty

end Outcome

class Container (C : Type) (Action : outParam Type) where
  /-- Puts obligations in front of everything pending; final ones are left out. -/
  push : List (Obligation Action) → C → Except Fault C
  perform : Action → C → Except (Stop Action) C
  skip : C → Except (Stop Action) C
  skipAll : C → Except (Stop Action) C
  canSkip : C → Except Fault Bool
  canPerform : Action → C → Except Fault Bool
  possibleActions : C → Except Fault (List Action)
  length : C → Nat
  clear : C → C

namespace Container

variable {C Action : Type}

def isEmpty [Container C Action] (container : C) : Bool := length container == 0

def pushOutcome [Container C Action] (outcome : Outcome Action) (container : C) :
    Except Fault C :=
  if outcome.hasFollowUps then push outcome.followUps container else .ok container

def skipUntilEmpty (isEmpty : C → Bool) (skip : C → Except (Stop Action) C) :
    (fuel : Nat) → C → Except (Stop Action) C
  | 0, container =>
      if isEmpty container then .ok container else .error (.faulted .endlessSkip)
  | fuel + 1, container =>
      if isEmpty container then .ok container
      else do skipUntilEmpty isEmpty skip fuel (← skip container)

end Container

end TurnObligations
