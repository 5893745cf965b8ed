import TurnObligations.Proofs.Obligation.Run

/-!
Trees in which every template may be started. None of their nodes is ever left open with nothing to
perform, whatever has been performed and skipped.
-/

namespace TurnObligations.Obligation

variable {Action : Type}

/-- What the node copies to start a part is not final. -/
def Startable : Obligation Action → Prop
  | .repeated _ _ template _ _ => template.isFinal = false
  | .whenThen trigger consequence _ _ _ _ _ =>
      trigger.isFinal = false ∧ consequence.isFinal = false
  | _ => True

def Live (tree : Obligation Action) : Prop := tree.Everywhere Startable

@[simp] theorem live_single (action : Action) (mandatory completed : Bool) :
    (single action mandatory completed).Live :=
  .node trivial (by simp [children])

@[simp] theorem live_choice {branches : List (Obligation Action)} :
    (choice branches).Live ↔ ∀ branch ∈ branches, branch.Live := by
  rw [Live, everywhere_iff]
  simp [Startable, children, Live]

@[simp] theorem live_any {branches : List (Obligation Action)} {current : Option UInt64} :
    (any branches current).Live ↔ ∀ branch ∈ branches, branch.Live := by
  rw [Live, everywhere_iff]
  simp [Startable, children, Live]

@[simp] theorem live_repeated {atLeast atMost count : UInt32} {template : Obligation Action}
    {current : Option (Obligation Action)} :
    (repeated atLeast atMost template current count).Live ↔
      template.isFinal = false ∧ template.Live ∧ ∀ part ∈ current, part.Live := by
  rw [Live, everywhere_iff]
  cases current <;> simp [Startable, children, Live]

@[simp] theorem live_whenThen {trigger consequence : Obligation Action}
    {atLeast atMost whens thens : UInt32} {current : Option (Obligation Action)} :
    (whenThen trigger consequence atLeast atMost whens thens current).Live ↔
      (trigger.isFinal = false ∧ consequence.isFinal = false) ∧
        trigger.Live ∧ consequence.Live ∧ ∀ part ∈ current, part.Live := by
  rw [Live, everywhere_iff]
  cases current <;> simp [Startable, children, Live]

/-! ### Nothing left to perform means final -/

theorem not_accepts_of_isFinal {tree : Obligation Action} (final : tree.isFinal = true)
    (action : Action) : ¬tree.Accepts action := by
  intro accepts
  cases accepts with
  | single => simp [isFinal] at final
  | choice offered _ =>
      simp only [isFinal, List.isEmpty_iff] at final
      subst final
      cases offered
  | anyFresh offered _ =>
      simp only [isFinal, List.isEmpty_iff] at final
      subst final
      cases offered
  | anyCurrent found _ =>
      simp only [isFinal, List.isEmpty_iff] at final
      subst final
      simp at found
  | iteration _ => simp [isFinal] at final
  | template room _ =>
      simp only [isFinal, Option.isNone_none, Bool.true_and, beq_iff_eq] at final
      subst final
      exact absurd room (UInt32.lt_irrefl _)
  | occurrence _ => simp [isFinal] at final
  | consequence owed _ =>
      simp only [isFinal, Option.isNone_none, Bool.true_and, Bool.and_eq_true, beq_iff_eq] at final
      rw [final.1] at owed
      exact absurd owed (UInt32.lt_irrefl _)
  | trigger room _ =>
      simp only [isFinal, Option.isNone_none, Bool.true_and, Bool.and_eq_true, beq_iff_eq] at final
      rw [final.2] at room
      exact absurd room (UInt32.lt_irrefl _)

theorem exists_accepts {tree : Obligation Action} (valid : tree.Valid) (live : tree.Live)
    (unresolved : tree.isFinal = false) : ∃ action, tree.Accepts action := by
  induction tree using childInduction with
  | node tree ih =>
      cases tree with
      | single own mandatory completed =>
          have fresh : completed = false := unresolved
          subst fresh
          exact ⟨own, .single⟩
      | choice branches =>
          simp only [valid_choice, live_choice] at valid live
          cases branches with
          | nil => simp [isFinal] at unresolved
          | cons branch rest =>
              have first : branch ∈ branch :: rest := by simp
              obtain ⟨action, lands⟩ :=
                ih branch first (valid branch first).2 (live branch first) (valid branch first).1
              exact ⟨action, .choice first lands⟩
      | any branches current =>
          simp only [valid_any, live_any] at valid live
          have each (branch) (member : branch ∈ branches) :=
            ih branch member (valid.1 branch member).2 (live branch member)
              (valid.1 branch member).1
          cases current with
          | none =>
              cases branches with
              | nil => simp [isFinal] at unresolved
              | cons branch rest =>
                  have first : branch ∈ branch :: rest := by simp
                  obtain ⟨action, lands⟩ := each branch first
                  exact ⟨action, .anyFresh first lands⟩
          | some index =>
              have bound := valid.2 index rfl
              obtain ⟨action, lands⟩ := each _ (List.getElem_mem bound)
              exact ⟨action, .anyCurrent (List.getElem?_eq_getElem bound) lands⟩
      | repeated atLeast atMost template current count =>
          simp only [valid_repeated, live_repeated] at valid live
          cases current with
          | none =>
              have room : count < atMost := by
                have different : count ≠ atMost := by simpa [isFinal] using unresolved
                exact UInt32.lt_of_le_of_ne (UInt32.le_iff_toNat_le.mpr valid.1.2) different
              obtain ⟨action, lands⟩ := ih template (by simp [children]) valid.2.1 live.2.1 live.1
              exact ⟨action, .template room lands⟩
          | some current =>
              obtain ⟨currentOpen, _, currentValid⟩ := valid.2.2 current rfl
              obtain ⟨action, lands⟩ :=
                ih current (by simp [children]) currentValid (live.2.2 current rfl) currentOpen
              exact ⟨action, .iteration lands⟩
      | whenThen trigger consequence atLeast atMost whens thens current =>
          simp only [valid_whenThen, live_whenThen] at valid live
          obtain ⟨counters, triggerValid, consequenceValid, currentValid⟩ := valid
          obtain ⟨⟨triggerOpen, consequenceOpen⟩, triggerLive, consequenceLive, currentLive⟩ := live
          cases current with
          | none =>
              by_cases owed : thens < whens
              · obtain ⟨action, lands⟩ :=
                  ih consequence (by simp [children]) consequenceValid consequenceLive consequenceOpen
                exact ⟨action, .consequence owed lands⟩
              · have settled : thens = whens :=
                  UInt32.le_antisymm (UInt32.le_iff_toNat_le.mpr counters.1) (UInt32.not_lt.mp owed)
                have room : whens < atMost := by
                  have different : whens ≠ atMost := by
                    simpa [isFinal, settled] using unresolved
                  exact UInt32.lt_of_le_of_ne (UInt32.le_iff_toNat_le.mpr counters.2.1) different
                obtain ⟨action, lands⟩ :=
                  ih trigger (by simp [children]) triggerValid triggerLive triggerOpen
                exact ⟨action, .trigger room lands⟩
          | some current =>
              obtain ⟨action, lands⟩ := ih current (by simp [children]) (currentValid current rfl).2
                (currentLive current rfl) (currentValid current rfl).1
              exact ⟨action, .occurrence lands⟩

theorem isFinal_iff_accepts_nothing {tree : Obligation Action} (valid : tree.Valid)
    (live : tree.Live) : tree.isFinal = true ↔ ∀ action, ¬tree.Accepts action := by
  constructor
  · exact not_accepts_of_isFinal
  · intro stuck
    cases final : tree.isFinal with
    | true => rfl
    | false =>
        obtain ⟨action, accepts⟩ := exists_accepts valid live final
        exact absurd accepts (stuck action)

theorem isFinal_iff_possibleActions_empty {tree : Obligation Action} (valid : tree.Valid)
    (live : tree.Live) :
    ∃ offered, tree.possibleActions = .ok offered ∧ (tree.isFinal = true ↔ offered = []) := by
  obtain ⟨offered, listed, told⟩ := possibleActions_lists valid
  refine ⟨offered, listed, ?_⟩
  rw [isFinal_iff_accepts_nothing valid live, List.eq_nil_iff_forall_not_mem]
  exact forall_congr' fun action => not_congr (told action).symm

/-! ### Commands keep a tree live -/

theorem Resolves.startable {action : Action} {node next : Obligation Action}
    (resolves : node.Resolves action next) (startable : node.Startable) : next.Startable := by
  cases resolves with
  | anyFresh | anyCurrent =>
      rw [afterBranch]
      split <;> trivial
  | _ => exact startable

theorem Resolves.live {action : Action} {tree next : Obligation Action}
    (resolves : tree.Resolves action next) (live : tree.Live) : next.Live :=
  resolves.everywhere (fun _ _ => Resolves.startable) live

theorem startable_afterSkip {node : Obligation Action} (startable : node.Startable)
    (permitted : node.checkSkip = .ok ()) : node.afterSkip.Startable := by
  cases node with
  | choice branches =>
      rcases checkSkip_choice_eq_ok permitted with rfl | ⟨only, rfl, _⟩
      · trivial
      · trivial
  | any branches current => cases current <;> trivial
  | _ => exact startable

theorem afterSkip_live {tree : Obligation Action} (live : tree.Live)
    (permitted : tree.checkSkip = .ok ()) : tree.afterSkip.Live :=
  everywhere_afterSkip (fun _ => startable_afterSkip) live permitted

end TurnObligations.Obligation
