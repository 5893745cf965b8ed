import TurnObligations.Proofs.Trail.Moves

/-!
Where a turn on the trail can stand: at its opening move, or somewhere in what the location reached
asks for. These are all the trees that moves and skips can make of it.
-/

namespace TurnObligations

/-- What some commands have left of an obligation, which is not all done. -/
structure Obligation.UnderWay {Action : Type} [DecidableEq Action] (start tree : Obligation Action) :
    Prop where
  unresolved : tree.isFinal = false
  reached : ∃ commands, applyAll Obligation.apply commands start = .ok tree

namespace Trail

open Obligation (freshAny freshRepeat freshWhenThen mandatory optional)

inductive Phase where
  | opening
  | crossing
  | oneDrawn
  | twoDrawn
  | oneReturned
  | lastOwed
  | ridingOn
  | ranch
  | oneBought
  | hazard
  | station
  | oneSold
  | twoSold
deriving DecidableEq, Repr

namespace Phase

def drawing (drawn returned : UInt32) : Obligation Action :=
  .any [.whenThen (mandatory .drawCard) (mandatory .discardCard) 0 2 drawn returned none,
    optional .move] (some 0)

def selling (sold : UInt32) : Obligation Action :=
  .any [.repeated 1 3 (mandatory .discardCard) none sold] (some 0)

def tree : Phase → Obligation Action
  | opening => mandatory .move
  | crossing =>
      freshAny [freshWhenThen (mandatory .drawCard) (mandatory .discardCard) 0 2, optional .move]
  | oneDrawn => drawing 1 0
  | twoDrawn => drawing 2 0
  | oneReturned => drawing 1 1
  | lastOwed => drawing 2 1
  | ridingOn => .any [optional .move] none
  | ranch => freshAny [.choice [freshRepeat 0 2 (mandatory .buyCattle), mandatory .gain2Dollars]]
  | oneBought => .any [.choice [.repeated 0 2 (mandatory .buyCattle) none 1]] (some 0)
  | hazard => mandatory .payToll
  | station => freshAny [freshRepeat 1 3 (mandatory .discardCard)]
  | oneSold => selling 1
  | twoSold => selling 2

def location? : Phase → Option Location
  | opening => none
  | crossing | oneDrawn | twoDrawn | oneReturned | lastOwed | ridingOn => some .crossing
  | ranch | oneBought => some .ranch
  | hazard => some .hazard
  | station | oneSold | twoSold => some .station

/-- How many cards drawn are still to be discarded. -/
def owed : Phase → Nat
  | oneDrawn | lastOwed => 1
  | twoDrawn => 2
  | _ => 0

def herd : Phase → Nat
  | oneBought => 1
  | _ => 0

def arrival : Location → Phase
  | .crossing => crossing
  | .ranch => ranch
  | .hazard => hazard
  | .station => station

/-- Where an action other than moving on leads: to another phase, or to the end of the turn. -/
def after : Phase → Action → Option (Option Phase)
  | crossing, .drawCard => some oneDrawn
  | oneDrawn, .drawCard => some twoDrawn
  | oneDrawn, .discardCard => some oneReturned
  | twoDrawn, .discardCard => some lastOwed
  | oneReturned, .drawCard => some lastOwed
  | lastOwed, .discardCard => some ridingOn
  | ranch, .buyCattle => some oneBought
  | ranch, .gain2Dollars => some none
  | oneBought, .buyCattle => some none
  | hazard, .payToll => some none
  | station, .discardCard => some oneSold
  | oneSold, .discardCard => some twoSold
  | twoSold, .discardCard => some none
  | _, _ => none

def afterSkip : Phase → Option (Option Phase)
  | crossing | ridingOn | ranch | oneBought | station | oneSold | twoSold => some none
  | oneReturned => some ridingOn
  | _ => none

def pending (phase : Option Phase) : Stack Action := ⟨(phase.map tree).toList⟩

variable {phase : Phase} {next : Option Phase} {action : Action}

theorem arrival_tree (location : Location) : location.obligations = [(arrival location).tree] := by
  cases location <;> rfl

theorem tree_open (phase : Phase) : phase.tree.isFinal = false := by cases phase <;> rfl

theorem tree_valid (phase : Phase) : phase.tree.Valid :=
  (Obligation.validate_eq_ok_iff _).mp (by cases phase <;> rfl)

def route : Phase → List (Obligation.Command Action)
  | oneDrawn => [.perform .drawCard]
  | twoDrawn => [.perform .drawCard, .perform .drawCard]
  | oneReturned => [.perform .drawCard, .perform .discardCard]
  | lastOwed => [.perform .drawCard, .perform .discardCard, .perform .drawCard]
  | ridingOn => [.perform .drawCard, .perform .discardCard, .skip]
  | oneBought => [.perform .buyCattle]
  | oneSold => [.perform .discardCard]
  | twoSold => [.perform .discardCard, .perform .discardCard]
  | _ => []

theorem tree_underWay {location : Location} (here : phase.location? = some location) :
    (arrival location).tree.UnderWay phase.tree where
  unresolved := phase.tree_open
  reached := ⟨phase.route, by cases phase <;> cases here <;> rfl⟩

theorem owed_tree {node : Obligation Action} {count : UInt32} (part : node ∈ phase.tree.children)
    (asked : node.owed = .ok count) : count.toNat ≤ phase.owed := by
  have all : phase.tree.children.all (fun node =>
      node.owed.toOption.all fun count => count.toNat ≤ phase.owed) = true := by
    cases phase <;> rfl
  have here := List.all_eq_true.mp all node part
  simpa [asked, Except.toOption] using here

/-! ### Moves and skips -/

theorem perform_pending (still : action ≠ .move) :
    (pending phase).perform action =
      match phase.after action with
      | some next => .ok (pending next)
      | none => .error (.refused .nothingAvailable) := by
  cases phase <;> cases action <;> first | exact absurd rfl still | rfl

theorem skip_pending :
    (pending phase).skip =
      match phase.afterSkip with
      | some next => .ok (pending next)
      | none => .error (.refused .cannotSkip) := by
  cases phase <;> rfl

theorem perform_move {left : Stack Action} (moved : (pending phase).perform .move = .ok left) :
    phase.herd = 0 := by
  cases phase <;> first | rfl | cases moved

theorem after_keeps {later : Phase} (leads : phase.after action = some (some later)) :
    later.location? = phase.location? ∧ later.owed ≤ State.handAfter action phase.owed ∧
      later.herd = phase.herd + State.bought action := by
  cases phase <;> cases action <;> cases leads <;> exact ⟨rfl, by decide, rfl⟩

theorem herd_after (leads : phase.after action = some next) :
    phase.herd + State.bought action ≤ 2 := by
  cases phase <;> cases action <;> cases leads <;> decide

theorem afterSkip_keeps {later : Phase} (leads : phase.afterSkip = some (some later)) :
    later.location? = phase.location? ∧ later.owed = 0 ∧ later.herd = phase.herd := by
  cases phase <;> cases leads
  exact ⟨rfl, rfl, rfl⟩

theorem exits (phase : Phase) :
    (∃ next, phase.afterSkip = some next) ∨ phase = opening ∨ phase = hazard ∨
      (phase.location? = some .crossing ∧ 0 < phase.owed ∧
        ∃ next, phase.after .discardCard = some next) := by
  cases phase with
  | opening => exact .inr (.inl rfl)
  | hazard => exact .inr (.inr (.inl rfl))
  | oneDrawn | twoDrawn | lastOwed => exact .inr (.inr (.inr ⟨rfl, by decide, _, rfl⟩))
  | _ => exact .inl ⟨_, rfl⟩

theorem pending_valid (phase : Option Phase) : (pending phase).Valid := by
  intro tree member
  simp only [pending, Option.mem_toList, Option.map_eq_some_iff] at member
  obtain ⟨phase, _, rfl⟩ := member
  exact phase.tree_valid

theorem pending_predicted (phase : Option Phase) : Container.Predicted (pending phase) :=
  (pending_valid phase).decided.predicted

theorem herd_le (phase : Phase) : phase.herd ≤ 1 := by cases phase <;> decide

end Phase

end Trail

end TurnObligations
