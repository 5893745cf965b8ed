import TurnObligations.Container
import TurnObligations.Obligation.Resolve
import TurnObligations.Obligation.Storage

/-!
A stack of obligations, and how it is stored. Only the front is live; it goes as soon as it is final.
-/

namespace TurnObligations

structure Stack (Action : Type) where
  obligations : List (Obligation Action)
deriving DecidableEq

namespace Stack

variable {Action : Type}

def empty : Stack Action := ⟨[]⟩

def pushFront (obligation : Obligation Action) (stack : Stack Action) : Stack Action :=
  if obligation.isFinal then stack else ⟨obligation :: stack.obligations⟩

/-- From the last to the first, so that the first ends up in front. -/
def push (pushed : List (Obligation Action)) (stack : Stack Action) : Stack Action :=
  pushed.foldr pushFront stack

theorem push_append (front behind : List (Obligation Action)) (stack : Stack Action) :
    stack.push (front ++ behind) = (stack.push behind).push front := List.foldr_append

theorem push_obligations (pushed : List (Obligation Action)) (stack : Stack Action) :
    (stack.push pushed).obligations =
      (pushed.filter fun obligation => !obligation.isFinal) ++ stack.obligations := by
  induction pushed with
  | nil => rfl
  | cons first rest ih =>
      rw [push] at ih ⊢
      rw [List.foldr_cons, pushFront]
      cases final : first.isFinal <;> simp [ih, final]

def ofList (obligations : List (Obligation Action)) : Stack Action := empty.push obligations

def peek? (stack : Stack Action) : Option (Obligation Action) := stack.obligations.head?

def settle (front : Obligation Action) (rest : List (Obligation Action)) : Stack Action :=
  ⟨if front.isFinal then rest else front :: rest⟩

def perform [DecidableEq Action] (action : Action) (stack : Stack Action) :
    Except (Stop Action) (Stack Action) :=
  match stack.obligations with
  | [] => .error (.refused .nothingAvailable)
  | front :: rest => do
      if ← front.canPerform action then return settle (← front.perform action) rest
      else .error (.refused .nothingAvailable)

def skip (stack : Stack Action) : Except (Stop Action) (Stack Action) :=
  match stack.obligations with
  | [] => .error (.refused .nothingAvailable)
  | front :: rest => do return settle (← front.skip) rest

def isEmpty (stack : Stack Action) : Bool := stack.obligations.isEmpty

/-- No obligation takes more than two skips to go. -/
def skipAll (stack : Stack Action) : Except (Stop Action) (Stack Action) :=
  Container.skipUntilEmpty isEmpty skip (2 * stack.obligations.length) stack

def canSkip (stack : Stack Action) : Except Fault Bool :=
  match stack.obligations with
  | [] => .ok false
  | front :: _ => front.canSkip

def canPerform [DecidableEq Action] (action : Action) (stack : Stack Action) :
    Except Fault Bool :=
  match stack.obligations with
  | [] => .ok false
  | front :: _ => front.canPerform action

def possibleActions (stack : Stack Action) : Except Fault (List Action) :=
  match stack.obligations with
  | [] => .ok []
  | front :: _ => front.possibleActions

def validate (stack : Stack Action) : Except Corruption Unit :=
  Obligation.validateAll stack.obligations

instance [DecidableEq Action] : Container (Stack Action) Action where
  push pushed stack := .ok (stack.push pushed)
  perform := perform
  skip := skip
  skipAll := skipAll
  canSkip := canSkip
  canPerform := canPerform
  possibleActions := possibleActions
  length stack := stack.obligations.length
  clear _ := empty

section Storage

variable [NamedAction Action]

instance : Storable (Stack Action) where
  shape := .record "ObligationStack"
    [("obligations", .reserved Obligation.capacity (Storable.shape (Obligation Action)))]
  toDatum stack := .record [("obligations", Storable.toDatum stack.obligations)]
  ofDatum?
    | .record [(_, obligations)] => (Storable.ofDatum? obligations).map .mk
    | _ => none

instance : Saved (Stack Action) where
  validate := validate

end Storage

end Stack

end TurnObligations
