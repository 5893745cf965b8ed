import TurnObligations.Obligation.Valid
import TurnObligations.Proofs.Answer

/-!
Valid trees, node by node. A tree is valid when every node of it passes its own check; for each kind
of node this says which counters are in order and which parts are open.
-/

namespace TurnObligations

@[simp] theorem Corruption.unless_eq_ok {condition : Bool} {corruption : Corruption} :
    Corruption.unless condition corruption = .ok () ↔ condition = true := by
  cases condition <;> simp [Corruption.unless]

namespace Obligation

variable {Action : Type}

/-! ### Every node of a tree -/

def children : Obligation Action → List (Obligation Action)
  | .single .. => []
  | .choice branches => branches
  | .any branches _ => branches
  | .repeated _ _ template current _ => template :: current.toList
  | .whenThen trigger consequence _ _ _ _ current => trigger :: consequence :: current.toList

theorem sizeOf_child_lt {tree child : Obligation Action} (below : child ∈ tree.children) :
    sizeOf child < sizeOf tree := by
  have inCurrent : ∀ current : Option (Obligation Action), child ∈ current →
      sizeOf child < sizeOf current := by
    intro current member
    cases current with
    | none => simp at member
    | some part =>
        simp only [Option.mem_def, Option.some.injEq] at member
        subst member
        simp
  cases tree with
  | single => simp [children] at below
  | choice branches =>
      have smaller : sizeOf child < sizeOf branches := List.sizeOf_lt_of_mem below
      simp only [choice.sizeOf_spec]
      omega
  | any branches current =>
      have smaller : sizeOf child < sizeOf branches := List.sizeOf_lt_of_mem below
      simp only [any.sizeOf_spec]
      omega
  | repeated atLeast atMost template current count =>
      simp only [children, List.mem_cons, Option.mem_toList] at below
      simp only [repeated.sizeOf_spec]
      rcases below with rfl | below
      · omega
      · have smaller := inCurrent current below
        omega
  | whenThen trigger consequence atLeast atMost whens thens current =>
      simp only [children, List.mem_cons, Option.mem_toList] at below
      simp only [whenThen.sizeOf_spec]
      rcases below with rfl | rfl | below
      · omega
      · omega
      · have smaller := inCurrent current below
        omega

@[elab_as_elim]
theorem childInduction {motive : Obligation Action → Prop}
    (node : ∀ tree, (∀ child ∈ tree.children, motive child) → motive tree)
    (tree : Obligation Action) : motive tree :=
  node tree fun child _ => childInduction node child
termination_by sizeOf tree
decreasing_by exact sizeOf_child_lt ‹_›

inductive Everywhere (holds : Obligation Action → Prop) : Obligation Action → Prop
  | node {tree : Obligation Action} (here : holds tree)
      (below : ∀ child ∈ tree.children, Everywhere holds child) : Everywhere holds tree

theorem everywhere_iff {holds : Obligation Action → Prop} {tree : Obligation Action} :
    tree.Everywhere holds ↔ holds tree ∧ ∀ child ∈ tree.children, child.Everywhere holds :=
  ⟨fun | .node here below => ⟨here, below⟩, fun both => .node both.1 both.2⟩

theorem Everywhere.imp {holds implied : Obligation Action → Prop}
    (implies : ∀ tree, Everywhere holds tree → implied tree) {tree : Obligation Action}
    (every : tree.Everywhere holds) : tree.Everywhere implied := by
  induction every with
  | node here below ih => exact .node (implies _ (.node here below)) ih

/-! ### Validity -/

def Sound (node : Obligation Action) : Prop := node.checkNode = .ok ()

/-- The counters, bounds and `current` pointers of the whole tree are in order. -/
def Valid (tree : Obligation Action) : Prop := tree.Everywhere Sound

theorem sound_choice {branches : List (Obligation Action)} :
    (choice branches).Sound ↔ ∀ branch ∈ branches, branch.isFinal = false := by
  simp [Sound, checkNode]

theorem sound_any {branches : List (Obligation Action)} {current : Option UInt64} :
    (any branches current).Sound ↔
      (∀ branch ∈ branches, branch.isFinal = false) ∧
        ∀ index ∈ current, index.toNat < branches.length := by
  cases current <;> simp [Sound, checkNode, bind_unit_eq_ok]

theorem sound_repeated {atLeast atMost count : UInt32} {template : Obligation Action}
    {current : Option (Obligation Action)} :
    (repeated atLeast atMost template current count).Sound ↔
      (atLeast.toNat ≤ atMost.toNat ∧ count.toNat ≤ atMost.toNat) ∧
        ∀ part ∈ current, part.isFinal = false ∧ count.toNat < atMost.toNat := by
  cases current <;>
    simp [Sound, checkNode, bind_unit_eq_ok, UInt32.le_iff_toNat_le, UInt32.lt_iff_toNat_lt,
      and_assoc]

theorem sound_whenThen {trigger consequence : Obligation Action}
    {atLeast atMost whens thens : UInt32} {current : Option (Obligation Action)} :
    (whenThen trigger consequence atLeast atMost whens thens current).Sound ↔
      (thens.toNat ≤ whens.toNat ∧ whens.toNat ≤ atMost.toNat ∧ atLeast.toNat ≤ atMost.toNat) ∧
        ∀ part ∈ current, part.isFinal = false := by
  cases current <;>
    simp [Sound, checkNode, bind_unit_eq_ok, UInt32.le_iff_toNat_le, and_assoc]

@[simp] theorem valid_single (action : Action) (mandatory completed : Bool) :
    (single action mandatory completed).Valid :=
  .node rfl (by simp [children])

@[simp] theorem valid_choice {branches : List (Obligation Action)} :
    (choice branches).Valid ↔ ∀ branch ∈ branches, branch.isFinal = false ∧ branch.Valid := by
  rw [Valid, everywhere_iff, sound_choice]
  simp only [children, Valid, forall_and]

@[simp] theorem valid_any {branches : List (Obligation Action)} {current : Option UInt64} :
    (any branches current).Valid ↔
      (∀ branch ∈ branches, branch.isFinal = false ∧ branch.Valid) ∧
        ∀ index ∈ current, index.toNat < branches.length := by
  rw [Valid, everywhere_iff, sound_any]
  simp only [children, Valid, forall_and, and_right_comm]

@[simp] theorem valid_repeated {atLeast atMost count : UInt32} {template : Obligation Action}
    {current : Option (Obligation Action)} :
    (repeated atLeast atMost template current count).Valid ↔
      (atLeast.toNat ≤ atMost.toNat ∧ count.toNat ≤ atMost.toNat) ∧ template.Valid ∧
        ∀ part ∈ current, part.isFinal = false ∧ count.toNat < atMost.toNat ∧ part.Valid := by
  rw [Valid, everywhere_iff, sound_repeated]
  cases current <;> simp [children, Valid, and_assoc, and_left_comm]

@[simp] theorem valid_whenThen {trigger consequence : Obligation Action}
    {atLeast atMost whens thens : UInt32} {current : Option (Obligation Action)} :
    (whenThen trigger consequence atLeast atMost whens thens current).Valid ↔
      (thens.toNat ≤ whens.toNat ∧ whens.toNat ≤ atMost.toNat ∧ atLeast.toNat ≤ atMost.toNat) ∧
        trigger.Valid ∧ consequence.Valid ∧
          ∀ part ∈ current, part.isFinal = false ∧ part.Valid := by
  rw [Valid, everywhere_iff, sound_whenThen]
  cases current <;> simp [children, Valid, and_assoc, and_left_comm]

theorem validateAll_eq_ok_iff {branches : List (Obligation Action)} :
    validateAll branches = .ok () ↔ ∀ branch ∈ branches, branch.validate = .ok () := by
  induction branches with
  | nil => simp [validateAll]
  | cons branch rest ih => simp [validateAll, bind_unit_eq_ok, ih]

theorem validateCurrent_eq_ok_iff {current : Option (Obligation Action)} :
    validateCurrent current = .ok () ↔ ∀ part ∈ current, part.validate = .ok () := by
  cases current <;> simp [validateCurrent]

theorem validate_eq_ok_iff_children (tree : Obligation Action) :
    tree.validate = .ok () ↔
      tree.Sound ∧ ∀ child ∈ tree.children, child.validate = .ok () := by
  cases tree with
  | single => simp [validate, Sound, children]
  | choice branches => simp [validate, Sound, children, bind_unit_eq_ok, validateAll_eq_ok_iff]
  | any branches current =>
      simp [validate, Sound, children, bind_unit_eq_ok, validateAll_eq_ok_iff]
  | repeated => simp [validate, Sound, children, bind_unit_eq_ok, validateCurrent_eq_ok_iff]
  | whenThen => simp [validate, Sound, children, bind_unit_eq_ok, validateCurrent_eq_ok_iff]

theorem validate_eq_ok_iff (tree : Obligation Action) : tree.validate = .ok () ↔ tree.Valid := by
  induction tree using childInduction with
  | node tree ih =>
      rw [validate_eq_ok_iff_children, Valid, everywhere_iff]
      exact and_congr_right fun _ => forall₂_congr ih

instance (tree : Obligation Action) : Decidable (tree.validate = .ok ()) :=
  match tree.validate with
  | .ok () => isTrue rfl
  | .error _ => isFalse nofun

end Obligation

end TurnObligations
