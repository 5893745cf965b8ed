import TurnObligations.Proofs.Obligation.Resolve

/-!
What a permitted skip leaves: a valid tree, and one that is final after a second skip at the latest.
-/

namespace TurnObligations.Obligation

variable {Action : Type}

theorem skip_eq_ok_iff {tree next : Obligation Action} :
    tree.skip = .ok next ↔ tree.checkSkip = .ok () ∧ tree.afterSkip = next := by
  rw [skip, bind_unit_eq_ok]
  exact and_congr_right fun _ => by simp [pure, Except.pure]

theorem skip_eq_error_iff {tree : Obligation Action} {stop : Stop Action} :
    tree.skip = .error stop ↔ tree.checkSkip = .error stop := by
  rw [skip]
  cases tree.checkSkip <;> simp [bind, Except.bind, pure, Except.pure]

theorem skip_faultless {tree : Obligation Action} (valid : tree.Valid) : Faultless tree.skip :=
  fun fault stopped => checkSkip_faultless valid fault (skip_eq_error_iff.mp stopped)

/-! ### When a skip is permitted -/

theorem checkSkip_choice_eq_ok {branches : List (Obligation Action)}
    (permitted : (choice branches).checkSkip = .ok ()) :
    branches = [] ∨ ∃ only, branches = [only] ∧ only.checkSkip = .ok () := by
  match branches with
  | [] => exact .inl rfl
  | [only] => exact .inr ⟨only, rfl, permitted⟩
  | _ :: _ :: _ => simp [checkSkip] at permitted

theorem checkSkip_repeated_eq_ok {atLeast atMost count : UInt32} {template : Obligation Action}
    {current : Option (Obligation Action)}
    (permitted : (repeated atLeast atMost template current count).checkSkip = .ok ()) :
    atLeast.toNat ≤ count.toNat := by
  rw [checkSkip] at permitted
  split at permitted
  · simp at permitted
  · next enough => exact UInt32.le_iff_toNat_le.mp (UInt32.not_lt.mp enough)

theorem checkSkip_whenThen_eq_ok {trigger consequence : Obligation Action}
    {atLeast atMost whens thens : UInt32} {current : Option (Obligation Action)}
    (permitted :
      (whenThen trigger consequence atLeast atMost whens thens current).checkSkip = .ok ()) :
    atLeast.toNat ≤ whens.toNat ∧ whens.toNat ≤ thens.toNat := by
  rw [checkSkip] at permitted
  split at permitted
  · simp at permitted
  · next enough =>
      simpa [UInt32.le_iff_toNat_le] using enough

theorem checkSkip_whenThen_paid {trigger consequence : Obligation Action}
    {atLeast atMost whens thens : UInt32} {current : Option (Obligation Action)}
    (valid : (whenThen trigger consequence atLeast atMost whens thens current).Valid)
    (permitted :
      (whenThen trigger consequence atLeast atMost whens thens current).checkSkip = .ok ()) :
    thens = whens := by
  simp only [valid_whenThen] at valid
  have enough := checkSkip_whenThen_eq_ok permitted
  exact UInt32.toNat_inj.mp (by omega)

/-! ### What it leaves -/

theorem children_afterSkip {tree part : Obligation Action} (permitted : tree.checkSkip = .ok ())
    (member : part ∈ tree.afterSkip.children) :
    part ∈ tree.children ∨
      ∃ child ∈ tree.children, child.checkSkip = .ok () ∧ child.afterSkip = part := by
  cases tree with
  | single => cases member
  | choice branches =>
      rcases checkSkip_choice_eq_ok permitted with rfl | ⟨only, rfl, onlyPermitted⟩
      · exact .inl member
      · obtain ⟨_, left⟩ := stillOpen_eq_some.mp (Option.mem_toList.mp member)
        exact .inr ⟨only, by simp [children], onlyPermitted, left⟩
  | any branches current =>
      cases current with
      | none => cases member
      | some index => exact .inl (List.mem_of_mem_eraseIdx member)
  | repeated => exact .inl (List.mem_append_left _ member)
  | whenThen => exact .inl (List.mem_append_left _ member)

/-- What every node satisfies outlives a permitted skip if it does so at each node by itself. -/
theorem everywhere_afterSkip {holds : Obligation Action → Prop}
    (skips : ∀ node : Obligation Action, holds node → node.checkSkip = .ok () → holds node.afterSkip)
    {tree : Obligation Action} (every : tree.Everywhere holds) (permitted : tree.checkSkip = .ok ()) :
    tree.afterSkip.Everywhere holds := by
  induction every with
  | node here below ih =>
      refine .node (skips _ here permitted) fun part member => ?_
      rcases children_afterSkip permitted member with kept | ⟨child, among, childPermitted, rfl⟩
      · exact below part kept
      · exact ih child among childPermitted

theorem sound_afterSkip {node : Obligation Action} (sound : node.Sound)
    (permitted : node.checkSkip = .ok ()) : node.afterSkip.Sound := by
  cases node with
  | single => rfl
  | choice branches =>
      rcases checkSkip_choice_eq_ok permitted with rfl | ⟨only, rfl, _⟩
      · exact sound
      · rw [afterSkip, sound_choice]
        intro part kept
        obtain ⟨unresolved, rfl⟩ := stillOpen_eq_some.mp (Option.mem_toList.mp kept)
        exact unresolved
  | any branches current =>
      rw [sound_any] at sound
      cases current with
      | none => simp [afterSkip, sound_any]
      | some index =>
          rw [afterSkip, sound_any]
          exact ⟨fun branch member => sound.1 branch (List.mem_of_mem_eraseIdx member), by simp⟩
  | repeated =>
      rw [sound_repeated] at sound
      have enough := checkSkip_repeated_eq_ok permitted
      simp [afterSkip, sound_repeated, enough]
  | whenThen =>
      rw [sound_whenThen] at sound
      have enough := checkSkip_whenThen_eq_ok permitted
      simp [afterSkip, sound_whenThen, enough, sound.1]

theorem afterSkip_valid {tree : Obligation Action} (valid : tree.Valid)
    (permitted : tree.checkSkip = .ok ()) : tree.afterSkip.Valid :=
  everywhere_afterSkip (fun _ => sound_afterSkip) valid permitted

theorem stillOpen_final {part : Obligation Action} (final : part.isFinal = true) :
    stillOpen part = none := if_pos final

theorem stillOpen_open {part : Obligation Action} (unresolved : part.isFinal = false) :
    stillOpen part = some part := by
  simp [stillOpen, unresolved]

theorem isFinal_choice_stillOpen (part : Obligation Action) :
    (choice (stillOpen part).toList).isFinal = part.isFinal := by
  cases final : part.isFinal with
  | true => rw [stillOpen_final final, Option.toList_none, isFinal, List.isEmpty_nil]
  | false => rw [stillOpen_open final, Option.toList_some, isFinal, List.isEmpty_cons]

/-- A permitted skip closes a tree, or leaves one that a second skip closes or leaves as it is for
good. No validity is asked for: the last happens where more consequences are counted than triggers. -/
theorem afterSkip_closes_or_stays {tree : Obligation Action} (permitted : tree.checkSkip = .ok ()) :
    tree.afterSkip.isFinal = true ∨
      (tree.afterSkip.checkSkip = .ok () ∧
        (tree.afterSkip.afterSkip.isFinal = true ∨ tree.afterSkip.afterSkip = tree.afterSkip)) := by
  induction tree using childInduction with
  | node tree ih =>
      cases tree with
      | single => exact .inl rfl
      | choice branches =>
          rcases checkSkip_choice_eq_ok permitted with rfl | ⟨only, rfl, onlyPermitted⟩
          · exact .inl rfl
          · have left : (choice [only]).afterSkip = choice (stillOpen only.afterSkip).toList := rfl
            have leftAgain : (choice [only.afterSkip]).afterSkip =
                choice (stillOpen only.afterSkip.afterSkip).toList := rfl
            cases final : only.afterSkip.isFinal with
            | true =>
                rw [left, stillOpen_final final]
                exact .inl rfl
            | false =>
                rw [left, stillOpen_open final, Option.toList_some, leftAgain]
                obtain ⟨again, closed | stays⟩ :=
                  (ih only (by simp [children]) onlyPermitted).resolve_left (by simp [final])
                · rw [stillOpen_final closed]
                  exact .inr ⟨again, .inl rfl⟩
                · rw [stays, stillOpen_open final]
                  exact .inr ⟨again, .inr rfl⟩
      | any branches current =>
          cases current with
          | none => exact .inl rfl
          | some index => exact .inr ⟨rfl, .inl rfl⟩
      | repeated => exact .inl (by simp [afterSkip, isFinal])
      | whenThen trigger consequence atLeast atMost whens thens current =>
          refine .inr ⟨?_, .inr rfl⟩
          rw [checkSkip] at permitted
          split at permitted
          · cases permitted
          · next enough =>
              rw [afterSkip, checkSkip, if_neg enough]
              rfl

theorem isFinal_of_afterSkip_eq {tree : Obligation Action} (valid : tree.Valid)
    (permitted : tree.checkSkip = .ok ()) (same : tree.afterSkip = tree) : tree.isFinal = true := by
  induction tree using childInduction with
  | node tree ih =>
      cases tree with
      | single =>
          cases same
          rfl
      | choice branches =>
          rcases checkSkip_choice_eq_ok permitted with rfl | ⟨only, rfl, onlyPermitted⟩
          · rfl
          · simp only [valid_choice, List.mem_singleton, forall_eq] at valid
            have kept : (stillOpen only.afterSkip).toList = [only] := choice.inj same
            rw [Option.toList_eq_singleton_iff, stillOpen_eq_some] at kept
            obtain ⟨unresolved, stays⟩ := kept
            have final := ih only (by simp [children]) valid.2 onlyPermitted stays
            rw [stays, final] at unresolved
            cases unresolved
      | any branches current =>
          cases current with
          | none =>
              cases same
              rfl
          | some index => simp [afterSkip] at same
      | repeated =>
          cases same
          simp [isFinal]
      | whenThen =>
          have paid := checkSkip_whenThen_paid valid permitted
          cases same
          simp [isFinal, paid]

theorem afterSkip_closes {tree : Obligation Action} (valid : tree.Valid)
    (permitted : tree.checkSkip = .ok ()) :
    tree.afterSkip.isFinal = true ∨
      (tree.afterSkip.checkSkip = .ok () ∧ tree.afterSkip.afterSkip.isFinal = true) := by
  rcases afterSkip_closes_or_stays permitted with closed | ⟨again, closed | stays⟩
  · exact .inl closed
  · exact .inr ⟨again, closed⟩
  · exact .inl (isFinal_of_afterSkip_eq (afterSkip_valid valid permitted) again stays)

/-- How many permitted skips it takes at most until the tree is final. -/
def skipsLeft (tree : Obligation Action) : Nat := if tree.afterSkip.isFinal then 1 else 2

theorem skipsLeft_afterSkip_lt {tree : Obligation Action} (valid : tree.Valid)
    (permitted : tree.checkSkip = .ok ()) (unresolved : tree.afterSkip.isFinal = false) :
    tree.afterSkip.skipsLeft < tree.skipsLeft := by
  obtain ⟨_, closed⟩ := (afterSkip_closes valid permitted).resolve_left (by simp [unresolved])
  simp [skipsLeft, unresolved, closed]

theorem skipsLeft_bounds (tree : Obligation Action) : 1 ≤ tree.skipsLeft ∧ tree.skipsLeft ≤ 2 := by
  rw [skipsLeft]
  split <;> omega

def skipsLeftAll : List (Obligation Action) → Nat
  | [] => 0
  | tree :: rest => tree.skipsLeft + skipsLeftAll rest

@[simp] theorem skipsLeftAll_cons (tree : Obligation Action) (rest : List (Obligation Action)) :
    skipsLeftAll (tree :: rest) = tree.skipsLeft + skipsLeftAll rest := rfl

@[simp] theorem skipsLeftAll_append (front rest : List (Obligation Action)) :
    skipsLeftAll (front ++ rest) = skipsLeftAll front + skipsLeftAll rest := by
  induction front with
  | nil => simp [skipsLeftAll]
  | cons tree front ih =>
      simp only [List.cons_append, skipsLeftAll_cons, ih]
      omega

theorem skipsLeftAll_bounds (trees : List (Obligation Action)) :
    trees.length ≤ skipsLeftAll trees ∧ skipsLeftAll trees ≤ 2 * trees.length := by
  induction trees with
  | nil => simp [skipsLeftAll]
  | cons tree rest ih =>
      have first := tree.skipsLeft_bounds
      simp only [skipsLeftAll_cons, List.length_cons]
      omega

theorem skipsLeftAll_stillOpen_lt {tree : Obligation Action} (valid : tree.Valid)
    (permitted : tree.checkSkip = .ok ()) :
    skipsLeftAll (stillOpen tree.afterSkip).toList < tree.skipsLeft := by
  cases final : tree.afterSkip.isFinal with
  | true =>
      rw [stillOpen_final final]
      exact tree.skipsLeft_bounds.1
  | false =>
      rw [stillOpen_open final]
      exact skipsLeft_afterSkip_lt valid permitted final

end TurnObligations.Obligation
