import TurnObligations.Obligation.Query
import TurnObligations.Proofs.Obligation.Valid

/-!
Which actions a tree accepts, as a relation beside the queries. On valid trees the queries have an
answer, and the answer is the one the relation gives.
-/

namespace TurnObligations.Obligation

variable {Action : Type}

/-- An action lands in a tree: in the part in progress where there is one, and otherwise in any part
that may be started. -/
inductive Accepts (action : Action) : Obligation Action → Prop
  | single {mandatory} : Accepts action (.single action mandatory false)
  | choice {branches branch} (offered : branch ∈ branches) (lands : Accepts action branch) :
      Accepts action (.choice branches)
  | anyFresh {branches branch} (offered : branch ∈ branches) (lands : Accepts action branch) :
      Accepts action (.any branches none)
  | anyCurrent {branches branch index} (found : branches[index.toNat]? = some branch)
      (lands : Accepts action branch) : Accepts action (.any branches (some index))
  | iteration {atLeast atMost template current count} (lands : Accepts action current) :
      Accepts action (.repeated atLeast atMost template (some current) count)
  | template {atLeast atMost template count} (room : count < atMost)
      (lands : Accepts action template) :
      Accepts action (.repeated atLeast atMost template none count)
  | occurrence {trigger consequence atLeast atMost whens thens current}
      (lands : Accepts action current) :
      Accepts action (.whenThen trigger consequence atLeast atMost whens thens (some current))
  | consequence {trigger consequence atLeast atMost whens thens} (owed : thens < whens)
      (lands : Accepts action consequence) :
      Accepts action (.whenThen trigger consequence atLeast atMost whens thens none)
  | trigger {trigger consequence atLeast atMost whens thens} (room : whens < atMost)
      (lands : Accepts action trigger) :
      Accepts action (.whenThen trigger consequence atLeast atMost whens thens none)

section Shapes

variable {action : Action}

theorem accepts_single {own : Action} {mandatory completed : Bool} :
    (single own mandatory completed).Accepts action ↔ completed = false ∧ action = own := by
  constructor
  · rintro ⟨⟩
    exact ⟨rfl, rfl⟩
  · rintro ⟨rfl, rfl⟩
    exact .single

theorem accepts_choice {branches : List (Obligation Action)} :
    (choice branches).Accepts action ↔ ∃ branch ∈ branches, branch.Accepts action :=
  ⟨fun | .choice offered lands => ⟨_, offered, lands⟩,
    fun ⟨_, offered, lands⟩ => .choice offered lands⟩

theorem accepts_anyFresh {branches : List (Obligation Action)} :
    (any branches none).Accepts action ↔ ∃ branch ∈ branches, branch.Accepts action :=
  ⟨fun | .anyFresh offered lands => ⟨_, offered, lands⟩,
    fun ⟨_, offered, lands⟩ => .anyFresh offered lands⟩

theorem accepts_anyCurrent {branches : List (Obligation Action)} {index : UInt64}
    {branch : Obligation Action} (found : branches[index.toNat]? = some branch) :
    (any branches (some index)).Accepts action ↔ branch.Accepts action := by
  constructor
  · rintro (_ | _ | _ | ⟨found', lands⟩)
    rw [found, Option.some.injEq] at found'
    exact found' ▸ lands
  · exact .anyCurrent found

theorem accepts_iteration {atLeast atMost count : UInt32} {template current : Obligation Action} :
    (repeated atLeast atMost template (some current) count).Accepts action ↔
      current.Accepts action :=
  ⟨fun | .iteration lands => lands, .iteration⟩

theorem accepts_template {atLeast atMost count : UInt32} {template : Obligation Action} :
    (repeated atLeast atMost template none count).Accepts action ↔
      count < atMost ∧ template.Accepts action :=
  ⟨fun | .template room lands => ⟨room, lands⟩, fun ⟨room, lands⟩ => .template room lands⟩

theorem accepts_occurrence {trigger consequence current : Obligation Action}
    {atLeast atMost whens thens : UInt32} :
    (whenThen trigger consequence atLeast atMost whens thens (some current)).Accepts action ↔
      current.Accepts action :=
  ⟨fun | .occurrence lands => lands, .occurrence⟩

theorem accepts_whenThen {trigger consequence : Obligation Action}
    {atLeast atMost whens thens : UInt32} :
    (whenThen trigger consequence atLeast atMost whens thens none).Accepts action ↔
      (thens < whens ∧ consequence.Accepts action) ∨
        (whens < atMost ∧ trigger.Accepts action) := by
  constructor
  · intro lands
    cases lands with
    | consequence owed lands => exact .inl ⟨owed, lands⟩
    | trigger room lands => exact .inr ⟨room, lands⟩
  · rintro (⟨owed, lands⟩ | ⟨room, lands⟩)
    · exact .consequence owed lands
    · exact .trigger room lands

end Shapes

/-! ### `canPerform` -/

section CanPerform

variable [DecidableEq Action] {action : Action}

theorem anyCanPerform_answers {branches : List (Obligation Action)}
    (each : ∀ branch ∈ branches, Answers (branch.canPerform action) (branch.Accepts action)) :
    Answers (anyCanPerform action branches) (∃ branch ∈ branches, branch.Accepts action) := by
  induction branches with
  | nil => exact (Answers.decided false).congr (by simp)
  | cons branch rest ih =>
      have head := each branch (by simp)
      have tail := ih fun other member => each other (by simp [member])
      exact (head.orElse tail).congr (by simp)

theorem canPerform_whenThen {trigger consequence : Obligation Action}
    {atLeast atMost whens thens : UInt32} :
    canPerform action (whenThen trigger consequence atLeast atMost whens thens none) =
      (if thens < whens then consequence.canPerform action else .ok false) >>= fun accepted =>
        if accepted then .ok true
        else if whens < atMost then trigger.canPerform action else .ok false := by
  rw [canPerform]
  split <;> rfl

theorem canPerform_answers (action : Action) {tree : Obligation Action} (valid : tree.Valid) :
    Answers (tree.canPerform action) (tree.Accepts action) := by
  induction tree using childInduction with
  | node tree ih =>
      cases tree with
      | single own mandatory completed =>
          exact (Answers.decided _).congr (by simp [accepts_single])
      | choice branches =>
          simp only [valid_choice] at valid
          rw [canPerform, accepts_choice]
          exact anyCanPerform_answers fun branch member => ih branch member (valid branch member).2
      | any branches current =>
          simp only [valid_any] at valid
          cases current with
          | none =>
              rw [canPerform, accepts_anyFresh]
              exact anyCanPerform_answers fun branch member =>
                ih branch member (valid.1 branch member).2
          | some index =>
              have inRange := valid.2 index rfl
              have member := List.getElem_mem inRange
              rw [canPerform, canPerformAt_eq, List.getElem?_eq_getElem inRange,
                accepts_anyCurrent (List.getElem?_eq_getElem inRange)]
              exact ih _ member (valid.1 _ member).2
      | repeated atLeast atMost template current count =>
          simp only [valid_repeated] at valid
          cases current with
          | none =>
              rw [canPerform, accepts_template]
              exact (ih template (by simp [children]) valid.2.1).onlyIf
          | some current =>
              rw [canPerform, accepts_iteration]
              exact ih current (by simp [children]) (valid.2.2 current rfl).2.2
      | whenThen trigger consequence atLeast atMost whens thens current =>
          simp only [valid_whenThen] at valid
          cases current with
          | none =>
              have onConsequence := ih consequence (by simp [children]) valid.2.2.1
              have onTrigger := ih trigger (by simp [children]) valid.2.1
              rw [canPerform_whenThen, accepts_whenThen]
              exact onConsequence.onlyIf.orElse onTrigger.onlyIf
          | some current =>
              rw [canPerform, accepts_occurrence]
              exact ih current (by simp [children]) (valid.2.2.2 current rfl).2

end CanPerform

/-! ### `possibleActions` -/

theorem allPossible_singleton (tree : Obligation Action) :
    allPossible [tree] = tree.possibleActions := by
  simp only [allPossible]
  cases tree.possibleActions with
  | error fault => rfl
  | ok offered => exact congrArg Except.ok (List.append_nil offered)

theorem allPossible_lists {branches : List (Obligation Action)}
    (each : ∀ branch ∈ branches, Lists branch.possibleActions (branch.Accepts ·)) :
    Lists (allPossible branches) fun action => ∃ branch ∈ branches, branch.Accepts action := by
  induction branches with
  | nil => exact Lists.nil.congr (by simp)
  | cons branch rest ih =>
      have head := each branch (by simp)
      have tail := ih fun other member => each other (by simp [member])
      exact (head.append tail).congr (by simp)

theorem possibleActions_whenThen {trigger consequence : Obligation Action}
    {atLeast atMost whens thens : UInt32} :
    possibleActions (whenThen trigger consequence atLeast atMost whens thens none) =
      (if thens < whens then consequence.possibleActions else .ok []) >>= fun owed =>
        (if whens < atMost then trigger.possibleActions else .ok []) >>= fun offered =>
          pure (owed ++ offered) := by
  rw [possibleActions]
  split <;> split <;> rfl

theorem possibleActions_lists {tree : Obligation Action} (valid : tree.Valid) :
    Lists tree.possibleActions (tree.Accepts ·) := by
  induction tree using childInduction with
  | node tree ih =>
      cases tree with
      | single own mandatory completed =>
          refine ⟨_, rfl, fun action => ?_⟩
          cases completed <;> simp [accepts_single]
      | choice branches =>
          simp only [valid_choice] at valid
          simp only [possibleActions, accepts_choice]
          exact allPossible_lists fun branch member => ih branch member (valid branch member).2
      | any branches current =>
          simp only [valid_any] at valid
          cases current with
          | none =>
              simp only [possibleActions, accepts_anyFresh]
              exact allPossible_lists fun branch member =>
                ih branch member (valid.1 branch member).2
          | some index =>
              have inRange := valid.2 index rfl
              have member := List.getElem_mem inRange
              simp only [possibleActions, possibleAt_eq, List.getElem?_eq_getElem inRange,
                accepts_anyCurrent (List.getElem?_eq_getElem inRange)]
              exact ih _ member (valid.1 _ member).2
      | repeated atLeast atMost template current count =>
          simp only [valid_repeated] at valid
          cases current with
          | none =>
              simp only [possibleActions, accepts_template]
              exact (ih template (by simp [children]) valid.2.1).onlyIf
          | some current =>
              simp only [possibleActions, accepts_iteration]
              exact ih current (by simp [children]) (valid.2.2 current rfl).2.2
      | whenThen trigger consequence atLeast atMost whens thens current =>
          simp only [valid_whenThen] at valid
          cases current with
          | none =>
              simp only [possibleActions_whenThen, accepts_whenThen]
              exact (ih consequence (by simp [children]) valid.2.2.1).onlyIf.append
                (ih trigger (by simp [children]) valid.2.1).onlyIf
          | some current =>
              simp only [possibleActions, accepts_occurrence]
              exact ih current (by simp [children]) (valid.2.2.2 current rfl).2

/-! ### `checkSkip` and `owed` -/

theorem checkSkipCurrent_faultless {current : Option (Obligation Action)}
    (each : ∀ part ∈ current, Faultless part.checkSkip) : Faultless (checkSkipCurrent current) := by
  cases current with
  | none => simp [checkSkipCurrent, Faultless]
  | some part => exact each part rfl

theorem checkSkip_faultless {tree : Obligation Action} (valid : tree.Valid) :
    Faultless tree.checkSkip := by
  induction tree using childInduction with
  | node tree ih =>
      cases tree with
      | single own mandatory completed =>
          rw [checkSkip]
          split <;> simp [Faultless]
      | choice branches =>
          simp only [valid_choice] at valid
          match branches with
          | [] => simp [checkSkip, Faultless]
          | [only] => exact ih only (by simp [children]) (valid only (by simp)).2
          | _ :: _ :: _ => simp [checkSkip, Faultless]
      | any branches current =>
          simp only [valid_any] at valid
          cases current with
          | none => simp [checkSkip, Faultless]
          | some index =>
              have inRange := valid.2 index rfl
              have member := List.getElem_mem inRange
              rw [checkSkip, checkSkipAt_eq, List.getElem?_eq_getElem inRange]
              exact ih _ member (valid.1 _ member).2
      | repeated atLeast atMost template current count =>
          simp only [valid_repeated] at valid
          rw [checkSkip]
          split
          · simp [Faultless]
          · exact checkSkipCurrent_faultless fun part found =>
              ih part (by simp_all [children]) (valid.2.2 part found).2.2
      | whenThen trigger consequence atLeast atMost whens thens current =>
          simp only [valid_whenThen] at valid
          rw [checkSkip]
          split
          · simp [Faultless]
          · exact checkSkipCurrent_faultless fun part found =>
              ih part (by simp_all [children]) (valid.2.2.2 part found).2

theorem owed_answers {tree : Obligation Action} (valid : tree.Valid) :
    ∃ count, tree.owed = .ok count := by
  cases tree with
  | whenThen trigger consequence atLeast atMost whens thens current =>
      simp only [valid_whenThen] at valid
      exact ⟨whens - thens, if_pos (UInt32.le_iff_toNat_le.mpr valid.1.1)⟩
  | _ => exact ⟨0, rfl⟩

end TurnObligations.Obligation
