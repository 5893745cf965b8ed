import TurnObligations.Fault

/-!
The tree of what the active player still owes or may do this turn, and when a node of it is resolved.
-/

namespace TurnObligations

/-- A node of the tree. `choice` resolves exactly one branch and `any` none, some or all of them;
`repeated` resolves its template between its bounds; every `whenThen` trigger owes one consequence. -/
inductive Obligation (Action : Type) where
  | single (action : Action) (mandatory completed : Bool)
  | choice (branches : List (Obligation Action))
  | any (branches : List (Obligation Action)) (current : Option UInt64)
  | repeated (atLeast atMost : UInt32) (template : Obligation Action)
      (current : Option (Obligation Action)) (count : UInt32)
  | whenThen (trigger consequence : Obligation Action) (atLeast atMost whens thens : UInt32)
      (current : Option (Obligation Action))

namespace Obligation

/-- The most obligations that a list has room for: each takes 48 bytes of fewer than 2 ^ 63. -/
def capacity : Nat := (UInt64.size / 2 - 1) / 48

variable {Action : Type}

def isFinal : Obligation Action → Bool
  | .single _ _ completed => completed
  | .choice branches => branches.isEmpty
  | .any branches _ => branches.isEmpty
  | .repeated _ atMost _ current count => current.isNone && count == atMost
  | .whenThen _ _ _ atMost whens thens current =>
      current.isNone && thens == whens && whens == atMost

/-- What is kept of a part just worked on: it stays open until it is final. -/
def stillOpen (part : Obligation Action) : Option (Obligation Action) :=
  if part.isFinal then none else some part

mutual

def decEq [DecidableEq Action] : (left right : Obligation Action) → Decidable (left = right)
  | .single a m c, .single a' m' c' =>
      if same : a = a' ∧ m = m' ∧ c = c' then isTrue (by simp [same])
      else isFalse (by intro equal; cases equal; simp at same)
  | .choice bs, .choice bs' =>
      match decEqList bs bs' with
      | isTrue same => isTrue (by rw [same])
      | isFalse differ => isFalse (by intro equal; cases equal; exact differ rfl)
  | .any bs i, .any bs' i' =>
      match decEqList bs bs' with
      | isTrue same =>
          if index : i = i' then isTrue (by rw [same, index])
          else isFalse (by intro equal; cases equal; exact index rfl)
      | isFalse differ => isFalse (by intro equal; cases equal; exact differ rfl)
  | .repeated lo hi t c n, .repeated lo' hi' t' c' n' =>
      match decEq t t', decEqOption c c' with
      | isTrue template, isTrue current =>
          if counters : lo = lo' ∧ hi = hi' ∧ n = n' then
            isTrue (by rw [template, current, counters.1, counters.2.1, counters.2.2])
          else isFalse (by intro equal; cases equal; simp at counters)
      | isFalse differ, _ => isFalse (by intro equal; cases equal; exact differ rfl)
      | _, isFalse differ => isFalse (by intro equal; cases equal; exact differ rfl)
  | .whenThen w t lo hi ws ts c, .whenThen w' t' lo' hi' ws' ts' c' =>
      match decEq w w', decEq t t', decEqOption c c' with
      | isTrue trigger, isTrue consequence, isTrue current =>
          if counters : lo = lo' ∧ hi = hi' ∧ ws = ws' ∧ ts = ts' then
            isTrue (by rw [trigger, consequence, current, counters.1, counters.2.1,
              counters.2.2.1, counters.2.2.2])
          else isFalse (by intro equal; cases equal; simp at counters)
      | isFalse differ, _, _ => isFalse (by intro equal; cases equal; exact differ rfl)
      | _, isFalse differ, _ => isFalse (by intro equal; cases equal; exact differ rfl)
      | _, _, isFalse differ => isFalse (by intro equal; cases equal; exact differ rfl)
  | .single .., .choice .. | .single .., .any .. | .single .., .repeated ..
  | .single .., .whenThen .. | .choice .., .single .. | .choice .., .any ..
  | .choice .., .repeated .. | .choice .., .whenThen .. | .any .., .single ..
  | .any .., .choice .. | .any .., .repeated .. | .any .., .whenThen ..
  | .repeated .., .single .. | .repeated .., .choice .. | .repeated .., .any ..
  | .repeated .., .whenThen .. | .whenThen .., .single .. | .whenThen .., .choice ..
  | .whenThen .., .any .. | .whenThen .., .repeated .. => isFalse nofun

def decEqList [DecidableEq Action] :
    (left right : List (Obligation Action)) → Decidable (left = right)
  | [], [] => isTrue rfl
  | [], _ :: _ | _ :: _, [] => isFalse nofun
  | first :: rest, first' :: rest' =>
      match decEq first first', decEqList rest rest' with
      | isTrue head, isTrue tail => isTrue (by rw [head, tail])
      | isFalse differ, _ => isFalse (by intro equal; cases equal; exact differ rfl)
      | _, isFalse differ => isFalse (by intro equal; cases equal; exact differ rfl)

def decEqOption [DecidableEq Action] :
    (left right : Option (Obligation Action)) → Decidable (left = right)
  | none, none => isTrue rfl
  | none, some _ | some _, none => isFalse nofun
  | some part, some part' =>
      match decEq part part' with
      | isTrue same => isTrue (by rw [same])
      | isFalse differ => isFalse (by intro equal; cases equal; exact differ rfl)

end

instance [DecidableEq Action] : DecidableEq (Obligation Action) := decEq

end Obligation

end TurnObligations
