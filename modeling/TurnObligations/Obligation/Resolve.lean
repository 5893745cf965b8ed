import TurnObligations.Obligation.Query

/-!
The two commands on a tree. `perform` consumes one occurrence of an action and `skip` forfeits what
remains where the rules permit it; a refused command leaves no new tree.
-/

namespace TurnObligations.Obligation

variable {Action : Type} [DecidableEq Action]

def refusePerform (action : Action) {α : Type} : Except (Stop Action) α :=
  .error (.refused (.cannotPerform action))

mutual

def perform (action : Action) : Obligation Action → Except (Stop Action) (Obligation Action)
  | .single own mandatory completed =>
      if !completed && action == own then .ok (.single own mandatory true)
      else refusePerform action
  | .choice branches => do
      match ← firstAccepting action branches with
      | none => refusePerform action
      | some index =>
          let chosen ← (performAt action branches index).getD
            (.error (.faulted (.indexOutOfBounds branches.length index)))
          return .choice (stillOpen chosen).toList
  | .any branches current => do
      let index ← match current with
        | some index => pure (some index.toNat)
        | none => firstAccepting action branches
      match index with
      | none => refusePerform action
      | some index =>
          let branch ← (performAt action branches index).getD
            (.error (.faulted (.indexOutOfBounds branches.length index)))
          return if branch.isFinal then .any (branches.eraseIdx index) none
            else .any (branches.set index branch) (some (UInt64.ofNat index))
  | .repeated atLeast atMost template (some current) count => do
      let current ← perform action current
      if current.isFinal then
        return .repeated atLeast atMost template none (← Counter.add32 count 1)
      else return .repeated atLeast atMost template (some current) count
  | .repeated atLeast atMost template none count => do
      if atMost ≤ count then refusePerform action
      else
        let iteration ← perform action template
        if iteration.isFinal then
          return .repeated atLeast atMost template none (← Counter.add32 count 1)
        else return .repeated atLeast atMost template (some iteration) count
  | .whenThen trigger consequence atLeast atMost whens thens (some current) => do
      let current ← perform action current
      return .whenThen trigger consequence atLeast atMost whens thens (stillOpen current)
  | .whenThen trigger consequence atLeast atMost whens thens none => do
      let thenAvailable ← if thens < whens then canPerform action consequence else .ok false
      if thenAvailable then
        let started ← perform action consequence
        return .whenThen trigger consequence atLeast atMost whens (← Counter.add32 thens 1)
          (stillOpen started)
      else
        let whenAvailable ← if whens < atMost then canPerform action trigger else .ok false
        if whenAvailable then
          let started ← perform action trigger
          return .whenThen trigger consequence atLeast atMost (← Counter.add32 whens 1) thens
            (stillOpen started)
        else refusePerform action

def performAt (action : Action) :
    List (Obligation Action) → Nat → Option (Except (Stop Action) (Obligation Action))
  | [], _ => none
  | branch :: _, 0 => some (perform action branch)
  | _ :: rest, index + 1 => performAt action rest index

end

theorem performAt_eq (action : Action) (branches : List (Obligation Action)) (index : Nat) :
    performAt action branches index = branches[index]?.map (perform action) := by
  induction branches generalizing index with
  | nil => simp [performAt]
  | cons branch rest ih => cases index <;> simp [performAt, ih]

omit [DecidableEq Action] in
/-- What a permitted skip leaves. An abandoned iteration does not count, and a lone `choice` branch
may need a second skip. -/
def afterSkip : Obligation Action → Obligation Action
  | .single action mandatory _ => .single action mandatory true
  | .choice [only] => .choice (stillOpen (afterSkip only)).toList
  | .choice branches => .choice branches
  | .any branches (some index) => .any (branches.eraseIdx index.toNat) none
  | .any _ none => .any [] none
  | .repeated atLeast _ template _ count => .repeated atLeast count template none count
  | .whenThen trigger consequence atLeast _ whens thens _ =>
      .whenThen trigger consequence atLeast whens whens thens none

omit [DecidableEq Action] in
def skip (obligation : Obligation Action) : Except (Stop Action) (Obligation Action) := do
  obligation.checkSkip
  return obligation.afterSkip

end TurnObligations.Obligation
