import TurnObligations.Obligation.Basic

/-!
Untouched trees. The checked builders refuse arguments from which no well-formed tree can be made;
the `fresh` ones are for arguments already known to be good.
-/

namespace TurnObligations.Obligation

variable {Action : Type}

def mandatory (action : Action) : Obligation Action := .single action true false

def optional (action : Action) : Obligation Action := .single action false false

def freshAny (branches : List (Obligation Action)) : Obligation Action :=
  .any (branches.filter fun branch => !branch.isFinal) none

def freshRepeat (atLeast atMost : UInt32) (template : Obligation Action) : Obligation Action :=
  .repeated atLeast atMost template none 0

def freshWhenThen (trigger consequence : Obligation Action) (atLeast atMost : UInt32) :
    Obligation Action :=
  .whenThen trigger consequence atLeast atMost 0 0 none

/-- None, some or all of the branches, in any order; branches already final are left out. -/
def buildAny (branches : List (Obligation Action)) : Except Fault (Obligation Action) := do
  require (!branches.isEmpty) .anyBranches
  return freshAny branches

def buildOptionalOf (obligation : Obligation Action) : Except Fault (Obligation Action) :=
  buildAny [obligation]

def buildAnyOfActions (actions : List Action) : Except Fault (Obligation Action) :=
  buildAny (actions.map mandatory)

def buildChoice (branches : List (Obligation Action)) : Except Fault (Obligation Action) := do
  require (!branches.isEmpty) .choiceBranches
  return .choice branches

def buildChoiceOfActions (actions : List Action) : Except Fault (Obligation Action) :=
  buildChoice (actions.map optional)

def buildRepeat (atLeast atMost : UInt32) (template : Obligation Action) :
    Except Fault (Obligation Action) := do
  require (atLeast ≤ atMost) (.repeatBounds atLeast atMost)
  require (!template.isFinal) .repeatTemplate
  return freshRepeat atLeast atMost template

def buildRepeatAction (atLeast atMost : UInt32) (action : Action) :
    Except Fault (Obligation Action) :=
  buildRepeat atLeast atMost (mandatory action)

def buildWhenThen (trigger consequence : Obligation Action) (atLeast atMost : UInt32) :
    Except Fault (Obligation Action) := do
  require (atLeast ≤ atMost) (.whenThenBounds atLeast atMost)
  require (!trigger.isFinal) .whenThenTrigger
  require (!consequence.isFinal) .whenThenConsequence
  return freshWhenThen trigger consequence atLeast atMost

def buildWhenThenActions (trigger consequence : Action) (atLeast atMost : UInt32) :
    Except Fault (Obligation Action) :=
  buildWhenThen (mandatory trigger) (mandatory consequence) atLeast atMost

end TurnObligations.Obligation
