import TurnObligations.Obligation.Build
import TurnObligations.Proofs.Obligation.Progress

/-!
Trees as the builders make them: they are valid, and every template in them may be started.
-/

namespace TurnObligations.Obligation

variable {Action : Type}

/-- Trees made by the builders alone, with no branch of a choice final from the start. -/
inductive Built : Obligation Action → Prop
  | mandatory (action : Action) : Built (mandatory action)
  | optional (action : Action) : Built (optional action)
  | any {branches tree} (parts : ∀ branch ∈ branches, Built branch)
      (made : buildAny branches = .ok tree) : Built tree
  | choice {branches tree} (parts : ∀ branch ∈ branches, Built branch)
      (unresolved : ∀ branch ∈ branches, branch.isFinal = false)
      (made : buildChoice branches = .ok tree) : Built tree
  | repeated {atLeast atMost template tree} (part : Built template)
      (made : buildRepeat atLeast atMost template = .ok tree) : Built tree
  | whenThen {trigger consequence atLeast atMost tree} (first : Built trigger)
      (second : Built consequence)
      (made : buildWhenThen trigger consequence atLeast atMost = .ok tree) : Built tree

theorem buildAny_eq_ok {branches : List (Obligation Action)} {tree : Obligation Action}
    (made : buildAny branches = .ok tree) : tree = freshAny branches :=
  (Except.ok.inj (bind_unit_eq_ok.mp made).2).symm

theorem buildChoice_eq_ok {branches : List (Obligation Action)} {tree : Obligation Action}
    (made : buildChoice branches = .ok tree) : tree = .choice branches :=
  (Except.ok.inj (bind_unit_eq_ok.mp made).2).symm

theorem buildRepeat_eq_ok {atLeast atMost : UInt32} {template tree : Obligation Action}
    (made : buildRepeat atLeast atMost template = .ok tree) :
    tree = freshRepeat atLeast atMost template ∧ atLeast ≤ atMost ∧ template.isFinal = false := by
  simp only [buildRepeat, bind_unit_eq_ok, require_eq_ok_iff, decide_eq_true_eq,
    Bool.not_eq_true'] at made
  exact ⟨(Except.ok.inj made.2.2).symm, made.1, made.2.1⟩

theorem buildWhenThen_eq_ok {trigger consequence tree : Obligation Action} {atLeast atMost : UInt32}
    (made : buildWhenThen trigger consequence atLeast atMost = .ok tree) :
    tree = freshWhenThen trigger consequence atLeast atMost ∧ atLeast ≤ atMost ∧
      trigger.isFinal = false ∧ consequence.isFinal = false := by
  simp only [buildWhenThen, bind_unit_eq_ok, require_eq_ok_iff, decide_eq_true_eq,
    Bool.not_eq_true'] at made
  exact ⟨(Except.ok.inj made.2.2.2).symm, made.1, made.2.1, made.2.2.1⟩

theorem built_of_anyOfActions {actions : List Action} {tree : Obligation Action}
    (made : buildAnyOfActions actions = .ok tree) : tree.Built :=
  .any (by simpa using fun action _ => .mandatory action) made

theorem Built.valid {tree : Obligation Action} (built : tree.Built) : tree.Valid := by
  induction built with
  | mandatory => exact valid_single ..
  | optional => exact valid_single ..
  | any _ made ih =>
      rw [buildAny_eq_ok made, freshAny, valid_any]
      refine ⟨?_, by simp⟩
      intro branch member
      obtain ⟨given, unresolved⟩ := List.mem_filter.mp member
      exact ⟨by simpa using unresolved, ih branch given⟩
  | choice _ unresolved made ih =>
      rw [buildChoice_eq_ok made, valid_choice]
      exact fun branch member => ⟨unresolved branch member, ih branch member⟩
  | repeated _ made ih =>
      obtain ⟨rfl, bounds, _⟩ := buildRepeat_eq_ok made
      have bounds := UInt32.le_iff_toNat_le.mp bounds
      simp [freshRepeat, bounds, ih]
  | whenThen _ _ made first second =>
      obtain ⟨rfl, bounds, _⟩ := buildWhenThen_eq_ok made
      have bounds := UInt32.le_iff_toNat_le.mp bounds
      simp [freshWhenThen, bounds, first, second]

theorem Built.live {tree : Obligation Action} (built : tree.Built) : tree.Live := by
  induction built with
  | mandatory => exact live_single ..
  | optional => exact live_single ..
  | any _ made ih =>
      rw [buildAny_eq_ok made, freshAny, live_any]
      exact fun branch member => ih branch (List.mem_filter.mp member).1
  | choice _ _ made ih =>
      rw [buildChoice_eq_ok made, live_choice]
      exact ih
  | repeated _ made ih =>
      obtain ⟨rfl, _, unresolved⟩ := buildRepeat_eq_ok made
      simp [freshRepeat, unresolved, ih]
  | whenThen _ _ made first second =>
      obtain ⟨rfl, _, triggerOpen, consequenceOpen⟩ := buildWhenThen_eq_ok made
      simp [freshWhenThen, triggerOpen, consequenceOpen, first, second]

end TurnObligations.Obligation
