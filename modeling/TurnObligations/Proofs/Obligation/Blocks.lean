import Mathlib.Data.List.Induction
import TurnObligations.Proofs.Obligation.Run

/-!
Nodes that work on one copy of a part after another. What has been performed on such a node splits into
blocks, one for each copy begun, and in one way only: a copy takes every move until it is final, and a
final copy takes none.
-/

namespace TurnObligations

namespace Obligation

variable {Action Kind : Type} [DecidableEq Action]

theorem perform_of_isFinal {tree : Obligation Action} (final : tree.isFinal = true) (action : Action)
    (next : Obligation Action) : tree.perform action ≠ .ok next := by
  -- no validity is asked for: with nothing left there is nothing for a move to land on
  intro performed
  cases tree with
  | single own mandatory completed =>
      have done : completed = true := final
      simp [perform, done, refusePerform] at performed
  | choice branches =>
      have none : branches = [] := List.isEmpty_iff.mp final
      subst none
      cases performed
  | any branches current =>
      have none : branches = [] := List.isEmpty_iff.mp final
      subst none
      cases current <;> cases performed
  | repeated atLeast atMost template current count =>
      simp only [isFinal, Bool.and_eq_true, Option.isNone_iff_eq_none, beq_iff_eq] at final
      obtain ⟨rfl, rfl⟩ := final
      rw [perform, if_pos (UInt32.le_refl _)] at performed
      cases performed
  | whenThen trigger consequence atLeast atMost whens thens current =>
      simp only [isFinal, Bool.and_eq_true, Option.isNone_iff_eq_none, beq_iff_eq] at final
      obtain ⟨⟨rfl, rfl⟩, rfl⟩ := final
      simp only [perform, UInt32.lt_irrefl, if_false] at performed
      cases performed

/-! ### Blocks -/

/-- A run of a copy of one of several trees, at least one move long. -/
@[ext] structure Block (copies : Kind → Obligation Action) where
  kind : Kind
  first : Action
  later : List Action
  left : Obligation Action
  ran : applyAll perform (first :: later) (copies kind) = .ok left

namespace Block

variable {copies : Kind → Obligation Action}

def moves (block : Block copies) : List Action := block.first :: block.later

def begin (kind : Kind) (action : Action) (left : Obligation Action)
    (performed : (copies kind).perform action = .ok left) : Block copies :=
  ⟨kind, action, [], left, by rw [applyAll, performed]; rfl⟩

def extend (block : Block copies) (action : Action) (left : Obligation Action)
    (performed : block.left.perform action = .ok left) : Block copies :=
  ⟨block.kind, block.first, block.later ++ [action], left,
    applyAll_concat_eq_ok.mpr ⟨block.left, block.ran, performed⟩⟩

theorem begun_or_extended (block : Block copies) :
    (∃ performed, block = begin block.kind block.first block.left performed) ∨
      ∃ (shorter : Block copies) (action : Action)
        (performed : shorter.left.perform action = .ok block.left),
        shorter.left.isFinal = false ∧ block = shorter.extend action block.left performed := by
  obtain ⟨kind, first, later, left, ran⟩ := block
  rcases List.eq_nil_or_concat later with rfl | ⟨earlier, action, rfl⟩
  · obtain ⟨next, performed, same⟩ := bind_eq_ok.mp ran
    exact .inl ⟨Except.ok.inj same ▸ performed, rfl⟩
  · rw [List.concat_eq_append, ← List.cons_append] at ran
    obtain ⟨between, before, performed⟩ := applyAll_concat_eq_ok.mp ran
    refine .inr ⟨⟨kind, first, earlier, between, before⟩, action, performed, ?_, ?_⟩
    · exact Bool.eq_false_iff.mpr fun final => perform_of_isFinal final action left performed
    · simp [extend]

end Block

/-! ### Splits -/

/-- What has been performed on a node: blocks that took their copies to the end, and one that did not. -/
@[ext] structure Split (copies : Kind → Obligation Action) where
  closed : List (Block copies)
  current : Option (Block copies)
  complete : ∀ block ∈ closed, block.left.isFinal = true
  unfinished : ∀ block ∈ current, block.left.isFinal = false

namespace Split

variable {copies : Kind → Obligation Action}

def start : Split copies := ⟨[], none, by simp, by simp⟩

def blocks (split : Split copies) : List (Block copies) := split.closed ++ split.current.toList

def moves (split : Split copies) : List Action := split.blocks.flatMap Block.moves

def add (split : Split copies) (block : Block copies) : Split copies :=
  if final : block.left.isFinal = true then
    { closed := split.closed ++ [block]
      current := none
      complete := by simpa [or_imp, forall_and, final] using split.complete
      unfinished := by simp }
  else
    { closed := split.closed
      current := some block
      complete := split.complete
      unfinished := by simpa using final }

theorem add_blocks (split : Split copies) (block : Block copies) :
    (split.add block).blocks = split.closed ++ [block] := by
  rw [add]
  split <;> simp [blocks]

theorem add_current (split : Split copies) (block : Block copies) :
    (split.add block).current.map Block.left = stillOpen block.left := by
  rw [add]
  split
  · next final => simp [stillOpen, final]
  · next unresolved => simp [stillOpen, unresolved]

theorem eq_start_or_add (split : Split copies) :
    split = start ∨ ∃ (rested : Split copies) (block : Block copies),
      rested.current = none ∧ split = rested.add block := by
  obtain ⟨closed, current, complete, unfinished⟩ := split
  cases current with
  | some block =>
      refine .inr ⟨⟨closed, none, complete, by simp⟩, block, rfl, ?_⟩
      have unresolved : block.left.isFinal = false := unfinished block rfl
      simp [add, unresolved]
  | none =>
      rcases List.eq_nil_or_concat closed with rfl | ⟨earlier, block, rfl⟩
      · exact .inl rfl
      · simp only [List.concat_eq_append, List.mem_append, List.mem_singleton, or_imp, forall_and,
          forall_eq] at complete
        refine .inr ⟨⟨earlier, none, complete.1, by simp⟩, block, rfl, ?_⟩
        simp [add, complete.2]

end Split

/-! ### Which blocks may follow one another -/

section Rules

variable {copies : Kind → Obligation Action}
  {may : List (Block copies) → Kind → Action → Prop}

def Allowed (may : List (Block copies) → Kind → Action → Prop) (blocks : List (Block copies)) : Prop :=
  ∀ before block after, blocks = before ++ block :: after → may before block.kind block.first

theorem Allowed.front {blocks after : List (Block copies)} (allowed : Allowed may (blocks ++ after)) :
    Allowed may blocks := by
  rintro before block between rfl
  exact allowed before block (between ++ after) (by simp)

theorem allowed_concat {blocks : List (Block copies)} {block : Block copies} :
    Allowed may (blocks ++ [block]) ↔ Allowed may blocks ∧ may blocks block.kind block.first := by
  constructor
  · intro allowed
    exact ⟨allowed.front, allowed blocks block [] rfl⟩
  · rintro ⟨allowed, last⟩ before other after shape
    rcases List.eq_nil_or_concat after with rfl | ⟨between, final, rfl⟩
    · obtain ⟨rfl, same⟩ := List.append_inj' shape rfl
      cases same
      exact last
    · refine allowed before other between ?_
      have front : blocks ++ [block] = (before ++ other :: between) ++ [final] := by simpa using shape
      exact (List.append_inj' front rfl).1

/-- The block that a move makes: a new one when no copy is open, and otherwise a longer one. -/
inductive Next (may : List (Block copies) → Kind → Action → Prop) (split : Split copies)
    (action : Action) : Block copies → Prop
  | begun {kind left} (rests : split.current = none) (permitted : may split.closed kind action)
      (performed : (copies kind).perform action = .ok left) :
      Next may split action (.begin kind action left performed)
  | resumed {block left} (inProgress : split.current = some block)
      (performed : block.left.perform action = .ok left) :
      Next may split action (block.extend action left performed)

theorem exists_next_begun {split : Split copies} {action : Action} {holds : Block copies → Prop}
    (rests : split.current = none) :
    (∃ block, Next may split action block ∧ holds block) ↔
      ∃ kind left, ∃ performed : (copies kind).perform action = .ok left,
        may split.closed kind action ∧ holds (.begin kind action left performed) := by
  constructor
  · rintro ⟨_, ⟨_, permitted, performed⟩ | ⟨inProgress, _⟩, held⟩
    · exact ⟨_, _, performed, permitted, held⟩
    · cases rests.symm.trans inProgress
  · rintro ⟨kind, left, performed, permitted, held⟩
    exact ⟨_, .begun rests permitted performed, held⟩

theorem exists_next_resumed {split : Split copies} {action : Action} {block : Block copies}
    {holds : Block copies → Prop} (inProgress : split.current = some block) :
    (∃ longer, Next may split action longer ∧ holds longer) ↔
      ∃ left, ∃ performed : block.left.perform action = .ok left,
        holds (block.extend action left performed) := by
  constructor
  · rintro ⟨_, ⟨rests, _, _⟩ | ⟨inProgress', performed⟩, held⟩
    · cases rests.symm.trans inProgress
    · cases inProgress.symm.trans inProgress'
      exact ⟨_, performed, held⟩
  · rintro ⟨left, performed, held⟩
    exact ⟨_, .resumed inProgress performed, held⟩

theorem Next.moves {split : Split copies} {action : Action} {block : Block copies}
    (next : Next may split action block) : (split.add block).moves = split.moves ++ [action] := by
  rw [Split.moves, Split.add_blocks, Split.moves, Split.blocks]
  cases next with
  | begun rests => simp [rests, Block.begin, Block.moves]
  | resumed inProgress => simp [inProgress, Block.extend, Block.moves]

theorem Next.allowed {split : Split copies} {action : Action} {block : Block copies}
    (next : Next may split action block) (allowed : Allowed may split.blocks) :
    Allowed may (split.add block).blocks := by
  rw [Split.add_blocks, allowed_concat]
  rw [Split.blocks] at allowed
  cases next with
  | begun rests permitted => exact ⟨by simpa [rests] using allowed, permitted⟩
  | resumed inProgress =>
      rw [inProgress, Option.toList_some, allowed_concat] at allowed
      exact allowed

theorem exists_next {split : Split copies} {moves : List Action} {action : Action}
    (shape : split.moves = moves ++ [action]) (allowed : Allowed may split.blocks) :
    ∃ (earlier : Split copies) (block : Block copies), earlier.moves = moves ∧
      Allowed may earlier.blocks ∧ Next may earlier action block ∧ split = earlier.add block := by
  -- once the earlier split is found, its moves follow from those of the next one
  have closing {earlier : Split copies} {last : Action} {block : Block copies}
      (next : Next may earlier last block) (same : split = earlier.add block) :
      earlier.moves = moves ∧ last = action := by
    rw [same, next.moves] at shape
    simpa using List.append_inj' shape rfl
  rcases split.eq_start_or_add with rfl | ⟨rested, block, rests, same⟩
  · simp [Split.moves, Split.blocks, Split.start] at shape
  · rw [same, Split.add_blocks, allowed_concat] at allowed
    rcases block.begun_or_extended with
      ⟨performed, begun⟩ | ⟨shorter, last, performed, unresolved, extended⟩
    · have next : Next may rested block.first block := by
        rw [begun]
        exact .begun rests allowed.2 performed
      obtain ⟨sameMoves, rfl⟩ := closing next same
      exact ⟨rested, block, sameMoves, by simpa [Split.blocks, rests] using allowed.1, next, same⟩
    · let earlier : Split copies :=
        ⟨rested.closed, some shorter, rested.complete, by simpa using unresolved⟩
      have next : Next may earlier last block := by
        rw [extended]
        exact .resumed rfl performed
      obtain ⟨sameMoves, rfl⟩ := closing next same
      refine ⟨earlier, block, sameMoves, ?_, next, same⟩
      have opening : may rested.closed shorter.kind shorter.first := by
        rw [extended] at allowed
        exact allowed.2
      exact allowed_concat.mpr ⟨allowed.1, opening⟩

def Decisive (may : List (Block copies) → Kind → Action → Prop) : Prop :=
  ∀ before kind kind' first, may before kind first → may before kind' first → kind = kind'

theorem Next.unique {split : Split copies} {action : Action} {block block' : Block copies}
    (decides : Decisive may) (next : Next may split action block)
    (next' : Next may split action block') : block = block' := by
  cases next with
  | begun rests permitted performed =>
      cases next' with
      | begun _ permitted' performed' =>
          cases decides _ _ _ _ permitted permitted'
          cases performed.symm.trans performed'
          rfl
      | resumed inProgress => cases rests.symm.trans inProgress
  | resumed inProgress performed =>
      cases next' with
      | begun rests => cases rests.symm.trans inProgress
      | resumed inProgress' performed' =>
          cases inProgress.symm.trans inProgress'
          cases performed.symm.trans performed'
          rfl

theorem Split.eq_of_moves_eq {split split' : Split copies} (decides : Decisive may)
    (allowed : Allowed may split.blocks) (allowed' : Allowed may split'.blocks)
    (same : split.moves = split'.moves) : split = split' := by
  have nothing {split : Split copies} (none : split.moves = []) : split = start := by
    rcases split.eq_start_or_add with rfl | ⟨rested, block, _, rfl⟩
    · rfl
    · simp [moves, add_blocks, Block.moves] at none
  generalize shape : split.moves = moves at same
  induction moves using List.reverseRecOn generalizing split split' with
  | nil => rw [nothing shape, nothing same.symm]
  | append_singleton moves action ih =>
      obtain ⟨earlier, block, earlierMoves, earlierAllowed, next, rfl⟩ := exists_next shape allowed
      obtain ⟨earlier', block', earlierMoves', earlierAllowed', next', rfl⟩ :=
        exists_next same.symm allowed'
      cases ih earlierAllowed earlierAllowed' earlierMoves earlierMoves'.symm
      rw [next.unique decides next']

/-! ### The trace of a node -/

/-- The node that stands for a split takes exactly the moves that make a next block. -/
def Relays (may : List (Block copies) → Kind → Action → Prop)
    (node : Split copies → Obligation Action) : Prop :=
  ∀ split, Allowed may split.blocks → ∀ action reached,
    (node split).perform action = .ok reached ↔
      ∃ block, Next may split action block ∧ node (split.add block) = reached

theorem Relays.trace {node : Split copies → Obligation Action} (relays : Relays may node)
    (moves : List Action) (reached : Obligation Action) :
    applyAll perform moves (node .start) = .ok reached ↔
      ∃ split : Split copies, split.moves = moves ∧ Allowed may split.blocks ∧
        node split = reached := by
  induction moves using List.reverseRecOn generalizing reached with
  | nil =>
      constructor
      · intro ran
        refine ⟨.start, rfl, ?_, Except.ok.inj ran⟩
        rintro before block after shape
        simp [Split.blocks, Split.start] at shape
      · rintro ⟨split, none, _, rfl⟩
        rcases split.eq_start_or_add with rfl | ⟨rested, block, _, rfl⟩
        · rfl
        · simp [Split.moves, Split.add_blocks, Block.moves] at none
  | append_singleton moves action ih =>
      rw [applyAll_concat_eq_ok]
      constructor
      · rintro ⟨between, ran, performed⟩
        obtain ⟨split, rfl, allowed, rfl⟩ := (ih between).mp ran
        obtain ⟨block, next, rfl⟩ := (relays split allowed action reached).mp performed
        exact ⟨split.add block, next.moves, next.allowed allowed, rfl⟩
      · rintro ⟨split, shape, allowed, rfl⟩
        obtain ⟨earlier, block, rfl, earlierAllowed, next, rfl⟩ := exists_next shape allowed
        exact ⟨node earlier, (ih _).mpr ⟨earlier, rfl, earlierAllowed, rfl⟩,
          (relays earlier earlierAllowed action _).mpr ⟨block, next, rfl⟩⟩

end Rules

end Obligation

end TurnObligations
