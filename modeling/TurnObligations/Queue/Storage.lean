import TurnObligations.Container
import TurnObligations.Obligation.Resolve
import TurnObligations.Obligation.Storage

/-!
A queue of obligations resolved in order, beside a pool that may be resolved at any time, and how it
is stored. The obligation that a move leaves half resolved takes every move until it closes.
-/

namespace TurnObligations

instance : Storable QueueSlot where
  shape := .variants [("anyTime", .index), ("queue", .index)]
  toDatum
    | .anyTime index => .variant 0 "anyTime" (.index index)
    | .queue index => .variant 1 "queue" (.index index)
  ofDatum?
    | .variant 0 _ (.index index) => some (.anyTime index)
    | .variant 1 _ (.index index) => some (.queue index)
    | _ => none

structure Queue (Action : Type) where
  anyTime : List (Obligation Action)
  order : List (Obligation Action)
  current : Option QueueSlot
  /-- So that every index into the pool fits a slot. -/
  room : anyTime.length ≤ Obligation.capacity
deriving DecidableEq

namespace Queue

variable {Action : Type}

def empty : Queue Action := ⟨[], [], none, Nat.zero_le _⟩

def length (queue : Queue Action) : Nat := queue.anyTime.length + queue.order.length

def isEmpty (queue : Queue Action) : Bool := queue.length == 0

def get? (queue : Queue Action) : QueueSlot → Option (Obligation Action)
  | .anyTime index => queue.anyTime[index.toNat]?
  | .queue index => queue.order[index.toNat]?

def current? (queue : Queue Action) : Option (Obligation Action) := queue.current.bind queue.get?

/-- The obligation at the slot goes if it has become final, and is in progress otherwise. -/
def settle (queue : Queue Action) (slot : QueueSlot) (obligation : Obligation Action) :
    Queue Action :=
  match slot with
  | .anyTime index =>
      if obligation.isFinal then
        ⟨queue.anyTime.eraseIdx index.toNat, queue.order, none,
          Nat.le_trans (List.eraseIdx_sublist ..).length_le queue.room⟩
      else
        ⟨queue.anyTime.set index.toNat obligation, queue.order, some slot,
          Nat.le_trans (Nat.le_of_eq List.length_set) queue.room⟩
  | .queue index =>
      if obligation.isFinal then
        ⟨queue.anyTime, queue.order.eraseIdx index.toNat, none, queue.room⟩
      else ⟨queue.anyTime, queue.order.set index.toNat obligation, some slot, queue.room⟩

def release (queue : Queue Action) : Queue Action := { queue with current := none }

def clear (_ : Queue Action) : Queue Action := empty

def pushAnyTime (obligation : Obligation Action) (queue : Queue Action) :
    Except Fault (Queue Action) :=
  if obligation.isFinal then .ok queue
  else if room : (queue.anyTime ++ [obligation]).length ≤ Obligation.capacity then
    .ok ⟨queue.anyTime ++ [obligation], queue.order, queue.current, room⟩
  else .error .capacityExceeded

/-- The slot of the same obligation once `count` others stand in front of the order. -/
def shift (count : Nat) : Option QueueSlot → Except Fault (Option QueueSlot)
  | some (.queue index) => do return some (.queue (← Counter.advance index count))
  | other => .ok other

def pushFront (obligation : Obligation Action) (pushed : Nat × List (Obligation Action)) :
    Nat × List (Obligation Action) :=
  if obligation.isFinal then pushed else (pushed.1 + 1, obligation :: pushed.2)

/-- From the last to the first; the slot in progress moves once, when all of them stand there. -/
def push (pushed : List (Obligation Action)) (queue : Queue Action) :
    Except Fault (Queue Action) := do
  let (count, order) := pushed.foldr pushFront (0, queue.order)
  return ⟨queue.anyTime, order, ← shift count queue.current, queue.room⟩

theorem foldr_pushFront (pushed : List (Obligation Action)) (count : Nat)
    (order : List (Obligation Action)) :
    pushed.foldr pushFront (count, order) =
      (count + (pushed.filter fun obligation => !obligation.isFinal).length,
        (pushed.filter fun obligation => !obligation.isFinal) ++ order) := by
  induction pushed with
  | nil => rfl
  | cons first rest ih =>
      rw [List.foldr_cons, ih, pushFront]
      cases final : first.isFinal <;> simp [final, Nat.add_assoc]

theorem push_eq (pushed : List (Obligation Action)) (queue : Queue Action) :
    queue.push pushed =
      (shift (pushed.filter fun obligation => !obligation.isFinal).length queue.current).map
        fun slot => ⟨queue.anyTime,
          (pushed.filter fun obligation => !obligation.isFinal) ++ queue.order, slot, queue.room⟩ := by
  simp only [push, foldr_pushFront, Nat.zero_add]
  cases shift _ queue.current <;> rfl

def front? (queue : Queue Action) : Option QueueSlot :=
  if queue.order.isEmpty then none else some (.queue 0)

/-- Where a move lands when nothing is in progress: the pool is tried before the order. -/
def locate [DecidableEq Action] (action : Action) (queue : Queue Action) :
    Except Fault (Option QueueSlot) := do
  match ← Obligation.firstAccepting action queue.anyTime with
  | some index => return some (.anyTime (UInt64.ofNat index))
  | none => return queue.front?

def perform [DecidableEq Action] (action : Action) (queue : Queue Action) :
    Except (Stop Action) (Queue Action) := do
  let slot ← match queue.current with
    | some slot => pure (some slot)
    | none => queue.locate action
  match slot.bind fun slot => (queue.get? slot).map (slot, ·) with
  | none => .error (.refused .nothingAvailable)
  | some (slot, obligation) =>
      if ← obligation.canPerform action then
        return queue.settle slot (← obligation.perform action)
      else .error (.refused .nothingAvailable)

/-- What a skip acts on; nothing when only the pool is left. -/
def skipTarget (queue : Queue Action) : Option QueueSlot := queue.current.or queue.front?

def dropIdle (queue : Queue Action) : Queue Action :=
  if queue.order.isEmpty then empty else queue

def skip (queue : Queue Action) : Except (Stop Action) (Queue Action) :=
  match queue.skipTarget with
  | some slot =>
      match queue.get? slot with
      | none => .error (.refused .nothingAvailable)
      | some obligation => do return ((queue.settle slot (← obligation.skip)).release).dropIdle
  | none =>
      if queue.anyTime.isEmpty then .error (.refused .nothingAvailable) else .ok queue.dropIdle

/-- No obligation takes more than two skips to go, and the pool at most one. -/
def skipAll (queue : Queue Action) : Except (Stop Action) (Queue Action) :=
  Container.skipUntilEmpty isEmpty skip (2 * queue.length + 2) queue

def canSkip (queue : Queue Action) : Except Fault Bool :=
  match queue.skipTarget with
  | some slot =>
      match queue.get? slot with
      | none => .ok false
      | some obligation => obligation.canSkip
  | none => .ok (!queue.anyTime.isEmpty)

def canPerform [DecidableEq Action] (action : Action) (queue : Queue Action) :
    Except Fault Bool :=
  match queue.current with
  | some slot =>
      match queue.get? slot with
      | none => .ok false
      | some obligation => obligation.canPerform action
  | none => do
      if ← Obligation.anyCanPerform action queue.anyTime then return true
      else
        match queue.order with
        | [] => return false
        | front :: _ => front.canPerform action

def possibleActions (queue : Queue Action) : Except Fault (List Action) :=
  match queue.current? with
  | some current => current.possibleActions
  | none => Obligation.allPossible (queue.anyTime ++ queue.order.head?.toList)

def checkSlot (queue : Queue Action) : Except Corruption Unit :=
  match queue.current with
  | none => .ok ()
  | some slot =>
      match queue.get? slot with
      | none => .error (.slotOutOfRange slot)
      | some obligation => Corruption.unless (!obligation.isFinal) .slotFinal

def validate (queue : Queue Action) : Except Corruption Unit := do
  Obligation.validateAll (queue.anyTime ++ queue.order)
  queue.checkSlot

instance [DecidableEq Action] : Container (Queue Action) Action where
  push := push
  perform := perform
  skip := skip
  skipAll := skipAll
  canSkip := canSkip
  canPerform := canPerform
  possibleActions := possibleActions
  length := length
  clear := clear

section Storage

variable [NamedAction Action]

instance : Storable (Queue Action) where
  shape := .record "ObligationQueue"
    [("anyTime", Storable.shape (List (Obligation Action))),
      ("queue", .reserved Obligation.capacity (Storable.shape (Obligation Action))),
      ("current", Storable.shape (Option QueueSlot))]
  toDatum queue := .record
    [("anyTime", Storable.toDatum queue.anyTime), ("queue", Storable.toDatum queue.order),
      ("current", Storable.toDatum queue.current)]
  ofDatum?
    | .record [(_, anyTime), (_, order), (_, current)] => do
        let anyTime ← Storable.ofDatum? anyTime
        if room : anyTime.length ≤ Obligation.capacity then
          return ⟨anyTime, ← Storable.ofDatum? order, ← Storable.ofDatum? current, room⟩
        else none
    | _ => none

instance : Saved (Queue Action) where
  validate := validate

end Storage

end Queue

end TurnObligations
