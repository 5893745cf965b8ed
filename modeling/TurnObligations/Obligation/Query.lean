import TurnObligations.Counter
import TurnObligations.Obligation.Basic

/-!
What a tree accepts right now and whether it may be skipped. The queries look only where the next
command would land. A `current` index beyond its branches is a fault, as it is for the commands.
-/

namespace TurnObligations.Obligation

variable {Action : Type}

mutual

def canPerform [DecidableEq Action] (action : Action) : Obligation Action → Except Fault Bool
  | .single own _ completed => .ok (!completed && action == own)
  | .choice branches => anyCanPerform action branches
  | .any branches none => anyCanPerform action branches
  | .any branches (some index) =>
      (canPerformAt action branches index.toNat).getD
        (.error (.indexOutOfBounds branches.length index.toNat))
  | .repeated _ _ _ (some current) _ => canPerform action current
  | .repeated _ atMost template none count =>
      if count < atMost then canPerform action template else .ok false
  | .whenThen _ _ _ _ _ _ (some current) => canPerform action current
  | .whenThen trigger consequence _ atMost whens thens none => do
      let thenAvailable ← if thens < whens then canPerform action consequence else .ok false
      if thenAvailable then .ok true
      else if whens < atMost then canPerform action trigger
      else .ok false

def anyCanPerform [DecidableEq Action] (action : Action) :
    List (Obligation Action) → Except Fault Bool
  | [] => .ok false
  | branch :: rest => do
      if ← canPerform action branch then .ok true else anyCanPerform action rest

def canPerformAt [DecidableEq Action] (action : Action) :
    List (Obligation Action) → Nat → Option (Except Fault Bool)
  | [], _ => none
  | branch :: _, 0 => some (canPerform action branch)
  | _ :: rest, index + 1 => canPerformAt action rest index

end

theorem canPerformAt_eq [DecidableEq Action] (action : Action)
    (branches : List (Obligation Action)) (index : Nat) :
    canPerformAt action branches index = branches[index]?.map (canPerform action) := by
  induction branches generalizing index with
  | nil => simp [canPerformAt]
  | cons branch rest ih => cases index <;> simp [canPerformAt, ih]

def firstAccepting [DecidableEq Action] (action : Action) :
    List (Obligation Action) → Except Fault (Option Nat)
  | [] => .ok none
  | branch :: rest => do
      if ← canPerform action branch then .ok (some 0)
      else return (← firstAccepting action rest).map (· + 1)

mutual

def checkSkip : Obligation Action → Except (Stop Action) Unit
  | .single _ mandatory completed =>
      if mandatory && !completed then .error (.refused .cannotSkip) else .ok ()
  | .choice [] => .ok ()
  | .choice [only] => checkSkip only
  | .choice (_ :: _ :: _) => .error (.refused .mustChoose)
  | .any _ none => .ok ()
  | .any branches (some index) =>
      (checkSkipAt branches index.toNat).getD
        (.error (.faulted (.indexOutOfBounds branches.length index.toNat)))
  | .repeated atLeast _ _ current count =>
      if count < atLeast then .error (.refused .cannotSkip) else checkSkipCurrent current
  | .whenThen _ _ atLeast _ whens thens current =>
      if whens < atLeast || thens < whens then .error (.refused .cannotSkip)
      else checkSkipCurrent current

def checkSkipCurrent : Option (Obligation Action) → Except (Stop Action) Unit
  | none => .ok ()
  | some current => checkSkip current

def checkSkipAt : List (Obligation Action) → Nat → Option (Except (Stop Action) Unit)
  | [], _ => none
  | branch :: _, 0 => some (checkSkip branch)
  | _ :: rest, index + 1 => checkSkipAt rest index

end

theorem checkSkipAt_eq (branches : List (Obligation Action)) (index : Nat) :
    checkSkipAt branches index = branches[index]?.map checkSkip := by
  induction branches generalizing index with
  | nil => simp [checkSkipAt]
  | cons branch rest ih => cases index <;> simp [checkSkipAt, ih]

def canSkip (obligation : Obligation Action) : Except Fault Bool :=
  match obligation.checkSkip with
  | .ok () => .ok true
  | .error (.refused _) => .ok false
  | .error (.faulted fault) => .error fault

mutual

/-- The kinds of moves accepted right now, in tree order; one may be listed more than once. -/
def possibleActions : Obligation Action → Except Fault (List Action)
  | .single action _ completed => .ok (if completed then [] else [action])
  | .choice branches => allPossible branches
  | .any branches none => allPossible branches
  | .any branches (some index) =>
      (possibleAt branches index.toNat).getD
        (.error (.indexOutOfBounds branches.length index.toNat))
  | .repeated _ _ _ (some current) _ => possibleActions current
  | .repeated _ atMost template none count =>
      if count < atMost then possibleActions template else .ok []
  | .whenThen _ _ _ _ _ _ (some current) => possibleActions current
  | .whenThen trigger consequence _ atMost whens thens none => do
      let owed ← if thens < whens then possibleActions consequence else .ok []
      let offered ← if whens < atMost then possibleActions trigger else .ok []
      return owed ++ offered

def allPossible : List (Obligation Action) → Except Fault (List Action)
  | [] => .ok []
  | branch :: rest => do return (← possibleActions branch) ++ (← allPossible rest)

def possibleAt : List (Obligation Action) → Nat → Option (Except Fault (List Action))
  | [], _ => none
  | branch :: _, 0 => some (possibleActions branch)
  | _ :: rest, index + 1 => possibleAt rest index

end

theorem possibleAt_eq (branches : List (Obligation Action)) (index : Nat) :
    possibleAt branches index = branches[index]?.map possibleActions := by
  induction branches generalizing index with
  | nil => simp [possibleAt]
  | cons branch rest ih => cases index <;> simp [possibleAt, ih]

/-- Consequences owed and not yet started; other nodes owe none. -/
def owed : Obligation Action → Except Fault UInt32
  | .whenThen _ _ _ _ whens thens _ => Counter.sub32 whens thens
  | _ => .ok 0

end TurnObligations.Obligation
