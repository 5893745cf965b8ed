import TurnObligations.Proofs.Obligation.Built

/-!
How many moves a tree can take. Every move strictly lowers what remains of the budget, and no skip
raises it.
-/

namespace TurnObligations.Obligation

variable {Action : Type}

mutual

/-- The most moves that an untouched tree can take. -/
def budget : Obligation Action → Nat
  | .single .. => 1
  | .choice branches => budgetMax branches
  | .any branches _ => budgetSum branches
  | .repeated _ atMost template _ _ => atMost.toNat * budget template
  | .whenThen trigger consequence _ atMost _ _ _ =>
      atMost.toNat * (budget trigger + budget consequence)

def budgetMax : List (Obligation Action) → Nat
  | [] => 0
  | branch :: rest => max (budget branch) (budgetMax rest)

def budgetSum : List (Obligation Action) → Nat
  | [] => 0
  | branch :: rest => budget branch + budgetSum rest

end

mutual

/-- The most moves that a tree can still take. -/
def remaining : Obligation Action → Nat
  | .single _ _ completed => if completed then 0 else 1
  | .choice branches => remainingMax branches
  | .any branches _ => remainingSum branches
  | .repeated _ atMost template none count => (atMost.toNat - count.toNat) * remaining template
  | .repeated _ atMost template (some current) count =>
      (atMost.toNat - count.toNat - 1) * remaining template + remaining current
  | .whenThen trigger consequence _ atMost whens thens current =>
      (atMost.toNat - whens.toNat) * (remaining trigger + remaining consequence) +
        (whens.toNat - thens.toNat) * remaining consequence + remainingCurrent current

def remainingCurrent : Option (Obligation Action) → Nat
  | none => 0
  | some current => remaining current

def remainingMax : List (Obligation Action) → Nat
  | [] => 0
  | branch :: rest => max (remaining branch) (remainingMax rest)

def remainingSum : List (Obligation Action) → Nat
  | [] => 0
  | branch :: rest => remaining branch + remainingSum rest

end

-- The equations are made once, before the many proofs below that open them.
attribute [local simp] remaining remainingCurrent remainingMax remainingSum

theorem remaining_le_remainingMax {branches : List (Obligation Action)} {branch : Obligation Action}
    (offered : branch ∈ branches) : branch.remaining ≤ remainingMax branches := by
  induction branches with
  | nil => cases offered
  | cons first rest ih =>
      rw [remainingMax]
      rcases List.mem_cons.mp offered with rfl | later
      · exact Nat.le_max_left ..
      · exact Nat.le_trans (ih later) (Nat.le_max_right ..)

@[simp] theorem remainingSum_append (front rest : List (Obligation Action)) :
    remainingSum (front ++ rest) = remainingSum front + remainingSum rest := by
  induction front with
  | nil => simp
  | cons first front ih =>
      simp only [List.cons_append, remainingSum, ih]
      omega

theorem remainingCurrent_stillOpen_le (part : Obligation Action) :
    remainingCurrent (stillOpen part) ≤ part.remaining := by
  cases final : part.isFinal with
  | true =>
      rw [stillOpen_final final, remainingCurrent]
      exact Nat.zero_le _
  | false =>
      have unchanged : remainingCurrent (stillOpen part) = part.remaining := by
        rw [stillOpen_open final, remainingCurrent]
      exact Nat.le_of_eq unchanged

theorem remaining_choice_stillOpen_le (part : Obligation Action) :
    (choice (stillOpen part).toList).remaining ≤ part.remaining := by
  cases final : part.isFinal with
  | true =>
      rw [stillOpen_final final, Option.toList_none, remaining, remainingMax]
      exact Nat.zero_le _
  | false =>
      rw [stillOpen_open final, Option.toList_some, remaining, remainingMax, remainingMax]
      exact Nat.max_le.mpr ⟨Nat.le_refl _, Nat.zero_le _⟩

theorem remaining_afterBranch_le (before after : List (Obligation Action))
    (next : Obligation Action) :
    (afterBranch before next after).remaining ≤
      remainingSum before + next.remaining + remainingSum after := by
  rw [afterBranch]
  split
  · simp only [remaining, remainingSum_append]
    omega
  · simp only [remaining, remainingSum_append, remainingSum]
    omega

/-! ### One command -/

theorem remaining_iteration_le (atLeast atMost : UInt32) (template : Obligation Action)
    {count counted : UInt32} {next : Obligation Action}
    (counts : counted.toNat = count.toNat + if next.isFinal then 1 else 0) :
    (repeated atLeast atMost template (stillOpen next) counted).remaining ≤
      (atMost.toNat - count.toNat - 1) * template.remaining + next.remaining := by
  cases final : next.isFinal with
  | true =>
      simp only [final, if_true] at counts
      rw [stillOpen_final final, remaining, counts, Nat.sub_add_eq]
      exact Nat.le_add_right _ _
  | false =>
      simp only [final, Bool.false_eq_true, if_false, Nat.add_zero] at counts
      exact Nat.le_of_eq (by rw [stillOpen_open final, remaining, counts])

theorem Resolves.remaining_lt {action : Action} {tree next : Obligation Action}
    (resolves : tree.Resolves action next) : next.remaining < tree.remaining := by
  induction resolves with
  | single => simp
  | @choice before branch after chosen _ _ ih =>
      calc
        (Obligation.choice (stillOpen chosen).toList).remaining ≤ chosen.remaining :=
          remaining_choice_stillOpen_le chosen
        _ < branch.remaining := ih
        _ ≤ remainingMax (before ++ branch :: after) := remaining_le_remainingMax (by simp)
        _ = (Obligation.choice (before ++ branch :: after)).remaining := by rw [remaining]
  | @anyFresh before branch after next _ _ ih =>
      have left := remaining_afterBranch_le before after next
      simp only [remaining, remainingSum_append, remainingSum]
      omega
  | @anyCurrent before branch after next index _ _ ih =>
      have left := remaining_afterBranch_le before after next
      simp only [remaining, remainingSum_append, remainingSum]
      omega
  | @iteration atLeast atMost template current next count counted _ counts ih =>
      have left := remaining_iteration_le atLeast atMost template counts
      simp only [remaining]
      omega
  | @template atLeast atMost template next count counted room _ counts ih =>
      have left := remaining_iteration_le atLeast atMost template counts
      have room := UInt32.lt_iff_toNat_lt.mp room
      have one : (atMost.toNat - count.toNat) * template.remaining =
          (atMost.toNat - count.toNat - 1) * template.remaining + template.remaining := by
        rw [← Nat.succ_mul]
        congr 1
        omega
      simp only [remaining]
      omega
  | @occurrence trigger consequence atLeast atMost whens thens current next _ ih =>
      have left := remainingCurrent_stillOpen_le next
      simp only [remaining, remainingCurrent]
      omega
  | @consequence trigger consequence atLeast atMost whens thens next started owed _ counts ih =>
      have left := remainingCurrent_stillOpen_le next
      have owed := UInt32.lt_iff_toNat_lt.mp owed
      have one : (whens.toNat - thens.toNat) * consequence.remaining =
          (whens.toNat - started.toNat) * consequence.remaining + consequence.remaining := by
        rw [← Nat.succ_mul]
        congr 1
        omega
      simp only [remaining, remainingCurrent]
      omega
  | @trigger trigger consequence atLeast atMost whens thens next started _ room _ counts ih =>
      have left := remainingCurrent_stillOpen_le next
      have room := UInt32.lt_iff_toNat_lt.mp room
      have one : (atMost.toNat - whens.toNat) * (trigger.remaining + consequence.remaining) =
          (atMost.toNat - started.toNat) * (trigger.remaining + consequence.remaining) +
            (trigger.remaining + consequence.remaining) := by
        rw [← Nat.succ_mul]
        congr 1
        omega
      have owed : (started.toNat - thens.toNat) * consequence.remaining ≤
          (whens.toNat - thens.toNat) * consequence.remaining + consequence.remaining := by
        rw [← Nat.succ_mul]
        exact Nat.mul_le_mul_right _ (by omega)
      simp only [remaining, remainingCurrent]
      omega

theorem remainingSum_eraseIdx_le (branches : List (Obligation Action)) (index : Nat) :
    remainingSum (branches.eraseIdx index) ≤ remainingSum branches := by
  induction branches generalizing index with
  | nil => exact Nat.le_refl _
  | cons branch rest ih =>
      cases index with
      | zero =>
          simp only [List.eraseIdx_cons_zero, remainingSum]
          omega
      | succ index =>
          have later := ih index
          simp only [List.eraseIdx_cons_succ, remainingSum]
          omega

theorem afterSkip_remaining_le (tree : Obligation Action) :
    tree.afterSkip.remaining ≤ tree.remaining := by
  induction tree using childInduction with
  | node tree ih =>
      cases tree with
      | single => simp [afterSkip]
      | choice branches =>
          rcases branches with _ | ⟨only, _ | ⟨_, _⟩⟩
          · exact Nat.le_refl _
          · have left := ih only (by simp [children])
            have kept := remaining_choice_stillOpen_le only.afterSkip
            simp only [afterSkip]
            calc
              (choice (stillOpen only.afterSkip).toList).remaining ≤ only.remaining := by omega
              _ ≤ remainingMax [only] := remaining_le_remainingMax (by simp)
              _ = (choice [only]).remaining := by rw [remaining]
          · exact Nat.le_refl _
      | any branches current =>
          cases current with
          | none => simp [afterSkip]
          | some index =>
              simp only [afterSkip, remaining]
              exact remainingSum_eraseIdx_le branches index.toNat
      | repeated atLeast atMost template current count => simp [afterSkip]
      | whenThen trigger consequence atLeast atMost whens thens current =>
          simp only [afterSkip, remaining, remainingCurrent, Nat.sub_self, Nat.zero_mul]
          omega

/-! ### The budget of what the builders make -/

theorem remainingMax_eq_budgetMax {branches : List (Obligation Action)}
    (each : ∀ branch ∈ branches, branch.remaining = branch.budget) :
    remainingMax branches = budgetMax branches := by
  induction branches with
  | nil => rfl
  | cons branch rest ih =>
      rw [remainingMax, budgetMax, each branch (by simp),
        ih fun other member => each other (by simp [member])]

theorem remainingSum_eq_budgetSum {branches : List (Obligation Action)}
    (each : ∀ branch ∈ branches, branch.remaining = branch.budget) :
    remainingSum branches = budgetSum branches := by
  induction branches with
  | nil => rfl
  | cons branch rest ih =>
      rw [remainingSum, budgetSum, each branch (by simp),
        ih fun other member => each other (by simp [member])]

theorem Built.remaining_eq_budget {tree : Obligation Action} (built : tree.Built) :
    tree.remaining = tree.budget := by
  induction built with
  | mandatory => rfl
  | optional => rfl
  | any _ made ih =>
      rw [buildAny_eq_ok made, freshAny, remaining, budget]
      exact remainingSum_eq_budgetSum fun branch member => ih branch (List.mem_filter.mp member).1
  | choice _ _ made ih =>
      rw [buildChoice_eq_ok made, remaining, budget]
      exact remainingMax_eq_budgetMax ih
  | repeated _ made ih =>
      obtain ⟨rfl, _, _⟩ := buildRepeat_eq_ok made
      rw [freshRepeat, remaining, budget, ih]
      rfl
  | whenThen _ _ made first second =>
      obtain ⟨rfl, _, _⟩ := buildWhenThen_eq_ok made
      simp [freshWhenThen, budget, first, second]

end TurnObligations.Obligation
