import TurnObligations.Proofs.Obligation.Blocks
import TurnObligations.Proofs.Obligation.Built
import TurnObligations.Proofs.Invariant

/-!
What a `whenThen` node has been through, told from its moves alone: occurrences of the trigger and of
the consequence one after another, a consequence wherever one is owed and accepts the move.
-/

namespace TurnObligations.Obligation

variable {Action : Type} [DecidableEq Action]

inductive Half where
  | trigger
  | consequence
deriving DecidableEq

def halves (trigger consequence : Obligation Action) : Half → Obligation Action
  | .trigger => trigger
  | .consequence => consequence

abbrev Occurrences (trigger consequence : Obligation Action) :=
  List (Block (halves trigger consequence))

abbrev Pairings (trigger consequence : Obligation Action) := Split (halves trigger consequence)

variable {trigger consequence : Obligation Action} {atLeast atMost : UInt32}

/-- How many occurrences of one half have been begun, complete or not. -/
def started (half : Half) (blocks : Occurrences trigger consequence) : Nat :=
  blocks.countP fun block => block.kind = half

theorem started_concat (half : Half) (blocks : Occurrences trigger consequence)
    (block : Block (halves trigger consequence)) :
    started half (blocks ++ [block]) = started half blocks + if block.kind = half then 1 else 0 := by
  simp [started, List.countP_append, List.countP_singleton]

/-! ### The order of the occurrences -/

def Owes (blocks : Occurrences trigger consequence) (action : Action) : Prop :=
  started .consequence blocks < started .trigger blocks ∧ consequence.canPerform action = .ok true

def mayPair (atMost : UInt32) (before : Occurrences trigger consequence) :
    Half → Action → Prop
  | .consequence, action => Owes before action
  | .trigger, action => ¬Owes before action ∧ started .trigger before < atMost.toNat

theorem mayPair_decides :
    Decisive (mayPair atMost : Occurrences trigger consequence → Half → Action → Prop) := by
  intro before half half' action may may'
  cases half with
  | consequence =>
      cases half' with
      | consequence => rfl
      | trigger => exact absurd may may'.1
  | trigger =>
      cases half' with
      | consequence => exact absurd may' may.1
      | trigger => rfl

def InBounds (atMost : UInt32) (blocks : Occurrences trigger consequence) : Prop :=
  started .consequence blocks ≤ started .trigger blocks ∧ started .trigger blocks ≤ atMost.toNat

theorem inBounds_of_allowed {blocks : Occurrences trigger consequence}
    (allowed : Allowed (mayPair atMost) blocks) : InBounds atMost blocks := by
  induction blocks using List.reverseRecOn with
  | nil => simp [InBounds, started]
  | append_singleton blocks block ih =>
      rw [allowed_concat] at allowed
      obtain ⟨earlier, permitted⟩ := allowed
      have bounded := ih earlier
      simp only [InBounds, started_concat] at bounded ⊢
      cases kind : block.kind with
      | consequence =>
          rw [kind] at permitted
          have owed := permitted.1
          simp only [reduceCtorEq, if_true, if_false]
          omega
      | trigger =>
          rw [kind] at permitted
          have room := permitted.2
          simp only [reduceCtorEq, if_true, if_false]
          omega

theorem allowed_mayPair_iff {blocks : Occurrences trigger consequence} :
    Allowed (mayPair atMost) blocks ↔
      (∀ before after, blocks = before ++ after → InBounds atMost before) ∧
      ∀ before block after, blocks = before ++ block :: after →
        (block.kind = .consequence ↔ Owes before block.first) := by
  constructor
  · intro allowed
    constructor
    · rintro before after rfl
      exact inBounds_of_allowed allowed.front
    · intro before block after shape
      have permitted := allowed before block after shape
      cases kind : block.kind with
      | consequence => exact iff_of_true rfl (by rwa [kind] at permitted)
      | trigger =>
          rw [kind] at permitted
          exact iff_of_false (by simp) permitted.1
  · rintro ⟨bounded, turns⟩ before block after rfl
    have turn := turns before block after rfl
    cases kind : block.kind with
    | consequence => exact turn.mp kind
    | trigger =>
        have notOwed : ¬Owes before block.first := by simpa [kind] using turn
        -- the bound on the triggers up to this one leaves room for it
        have bound := (bounded (before ++ [block]) after (by simp)).2
        rw [started_concat, kind, if_pos rfl] at bound
        exact ⟨notOwed, bound⟩

namespace Pairings

def node (atLeast atMost : UInt32) (split : Pairings trigger consequence) : Obligation Action :=
  .whenThen trigger consequence atLeast atMost (UInt32.ofNat (started .trigger split.blocks))
    (UInt32.ofNat (started .consequence split.blocks)) (split.current.map Block.left)

theorem node_add (split : Pairings trigger consequence)
    (block : Block (halves trigger consequence)) :
    node atLeast atMost (split.add block) =
      .whenThen trigger consequence atLeast atMost
        (UInt32.ofNat (started .trigger split.closed + if block.kind = .trigger then 1 else 0))
        (UInt32.ofNat (started .consequence split.closed + if block.kind = .consequence then 1 else 0))
        (stillOpen block.left) := by
  rw [node, Split.add_current, Split.add_blocks, started_concat, started_concat]

end Pairings

/-! ### One move -/

variable {action : Action} {reached : Obligation Action}

theorem perform_between_iff {whens thens : Nat} (triggerValid : trigger.Valid)
    (consequenceValid : consequence.Valid) (ordered : thens ≤ whens) (bound : whens ≤ atMost.toNat) :
    (whenThen trigger consequence atLeast atMost (UInt32.ofNat whens) (UInt32.ofNat thens)
        none).perform action = .ok reached ↔
      ((thens < whens ∧ consequence.canPerform action = .ok true) ∧
        ∃ next, consequence.perform action = .ok next ∧
          whenThen trigger consequence atLeast atMost (UInt32.ofNat whens) (UInt32.ofNat (thens + 1))
            (stillOpen next) = reached) ∨
      ((¬(thens < whens ∧ consequence.canPerform action = .ok true) ∧ whens < atMost.toNat) ∧
        ∃ next, trigger.perform action = .ok next ∧
          whenThen trigger consequence atLeast atMost (UInt32.ofNat (whens + 1)) (UInt32.ofNat thens)
            (stillOpen next) = reached) := by
  have owedIff : UInt32.ofNat thens < UInt32.ofNat whens ↔ thens < whens := by
    rw [UInt32.lt_iff_toNat_lt, toNat_ofNat_of_le bound, toNat_ofNat_of_le (Nat.le_trans ordered bound)]
  have roomIff : UInt32.ofNat whens < atMost ↔ whens < atMost.toNat := by
    rw [UInt32.lt_iff_toNat_lt, toNat_ofNat_of_le bound]
  have asksConsequence := (canPerform_answers action consequenceValid).itself.onlyIf.congr
    (and_congr_left' owedIff)
  have asksTrigger := (canPerform_answers action triggerValid).itself.onlyIf.congr
    (and_congr_left' roomIff)
  rw [perform_whenThen]
  rcases asksConsequence.cases with ⟨owes, asked⟩ | ⟨notOwed, asked⟩
  · have room : thens < atMost.toNat := Nat.lt_of_lt_of_le owes.1 bound
    simp only [asked, lift_ok, ok_bind, if_true, add32_ofNat room, bind_eq_ok, pure, Except.pure,
      Except.ok.injEq]
    simp only [owes, and_self, not_true_eq_false, false_and, or_false, true_and]
  · simp only [asked, lift_ok, ok_bind, Bool.false_eq_true, if_false, notOwed, false_and,
      not_false_eq_true, true_and, false_or]
    rcases asksTrigger.cases with ⟨⟨room, accepts⟩, asked'⟩ | ⟨notOffered, asked'⟩
    · simp only [asked', lift_ok, ok_bind, if_true, add32_ofNat room, bind_eq_ok, pure, Except.pure,
        Except.ok.injEq, room, true_and]
    · rw [asked']
      refine iff_of_false (by simp [lift_ok, ok_bind, refusePerform]) ?_
      rintro ⟨room, next, performed, _⟩
      have accepts := triggerValid.predicted.canPerform action
      rw [performed] at accepts
      exact notOffered ⟨room, accepts⟩

theorem perform_occurrence_iff {whens thens : UInt32} {current : Obligation Action} :
    (whenThen trigger consequence atLeast atMost whens thens (some current)).perform action =
        .ok reached ↔
      ∃ next, current.perform action = .ok next ∧
        whenThen trigger consequence atLeast atMost whens thens (stillOpen next) = reached := by
  rw [perform, bind_eq_ok]
  simp only [pure, Except.pure, Except.ok.injEq]

theorem occurrences_relay (triggerValid : trigger.Valid) (consequenceValid : consequence.Valid) :
    Relays (mayPair atMost)
      (Pairings.node atLeast atMost : Pairings trigger consequence → Obligation Action) := by
  intro split allowed action reached
  cases inProgress : split.current with
  | none =>
      have whole : split.blocks = split.closed := by simp [Split.blocks, inProgress]
      rw [whole] at allowed
      obtain ⟨ordered, bound⟩ := inBounds_of_allowed allowed
      rw [Pairings.node, inProgress, whole, Option.map_none,
        perform_between_iff triggerValid consequenceValid ordered bound, exists_next_begun inProgress]
      constructor
      · rintro (⟨owes, next, performed, rfl⟩ | ⟨offered, next, performed, rfl⟩)
        · exact ⟨.consequence, next, performed, owes, Pairings.node_add ..⟩
        · exact ⟨.trigger, next, performed, offered, Pairings.node_add ..⟩
      · rintro ⟨half, next, performed, permitted, rfl⟩
        rw [Pairings.node_add]
        cases half with
        | consequence => exact .inl ⟨permitted, next, performed, rfl⟩
        | trigger => exact .inr ⟨permitted, next, performed, rfl⟩
  | some block =>
      have whole : split.blocks = split.closed ++ [block] := by simp [Split.blocks, inProgress]
      rw [Pairings.node, inProgress, whole, started_concat, started_concat, Option.map_some,
        perform_occurrence_iff, exists_next_resumed inProgress]
      constructor
      · rintro ⟨next, performed, rfl⟩
        exact ⟨next, performed, Pairings.node_add ..⟩
      · rintro ⟨next, performed, rfl⟩
        refine ⟨next, performed, ?_⟩
        rw [Pairings.node_add]
        rfl

/-! ### What the moves make of the node -/

/-- The moves split into these occurrences, and `reached` is the node that has been through them. A
block is of the consequence when one is owed that accepts its first move, and else of the trigger. -/
structure PairedTo (atLeast atMost : UInt32) (trigger consequence : Obligation Action)
    (moves : List Action) (split : Pairings trigger consequence) (reached : Obligation Action) :
    Prop where
  moves : split.moves = moves
  bound : ∀ before after, split.blocks = before ++ after → InBounds atMost before
  turns : ∀ before block after, split.blocks = before ++ block :: after →
    (block.kind = .consequence ↔ Owes before block.first)
  node : ∃ whens thens : UInt32, whens.toNat = started .trigger split.blocks ∧
    thens.toNat = started .consequence split.blocks ∧
    reached = .whenThen trigger consequence atLeast atMost whens thens (split.current.map Block.left)

variable {moves : List Action} {split : Pairings trigger consequence}

theorem pairedTo_iff : PairedTo atLeast atMost trigger consequence moves split reached ↔
    split.moves = moves ∧ Allowed (mayPair atMost) split.blocks ∧
      split.node atLeast atMost = reached := by
  rw [allowed_mayPair_iff]
  constructor
  · rintro ⟨sameMoves, bound, turns, whens, thens, triggers, consequences, rfl⟩
    refine ⟨sameMoves, ⟨bound, turns⟩, ?_⟩
    rw [Pairings.node, ← triggers, ← consequences, UInt32.ofNat_toNat, UInt32.ofNat_toNat]
  · rintro ⟨sameMoves, ⟨bound, turns⟩, rfl⟩
    obtain ⟨ordered, limited⟩ := bound split.blocks [] (List.append_nil _).symm
    exact ⟨sameMoves, bound, turns, _, _, toNat_ofNat_of_le limited,
      toNat_ofNat_of_le (Nat.le_trans ordered limited), rfl⟩

namespace PairedTo

theorem isFinal_iff (paired : PairedTo atLeast atMost trigger consequence moves split reached) :
    reached.isFinal = true ↔ split.current = none ∧
      started .consequence split.blocks = started .trigger split.blocks ∧
      started .trigger split.blocks = atMost.toNat := by
  obtain ⟨whens, thens, triggers, consequences, rfl⟩ := paired.node
  simp only [isFinal, Bool.and_eq_true, beq_iff_eq, Option.isNone_map, Option.isNone_iff_eq_none,
    ← UInt32.toNat_inj, triggers, consequences, and_assoc]

theorem checkSkip_iff (paired : PairedTo atLeast atMost trigger consequence moves split reached) :
    reached.checkSkip = .ok () ↔ atLeast.toNat ≤ started .trigger split.blocks ∧
      started .consequence split.blocks = started .trigger split.blocks ∧
      ∀ block ∈ split.current, block.left.checkSkip = .ok () := by
  have ordered := (paired.bound split.blocks [] (List.append_nil _).symm).1
  obtain ⟨whens, thens, triggers, consequences, rfl⟩ := paired.node
  rw [← triggers, ← consequences] at ordered ⊢
  rw [checkSkip]
  by_cases lacking : whens < atLeast ∨ thens < whens
  · have short : ¬(atLeast.toNat ≤ whens.toNat ∧ thens.toNat = whens.toNat) := by
      simp only [UInt32.lt_iff_toNat_lt] at lacking
      omega
    simp only [Bool.or_eq_true, decide_eq_true_eq, lacking, if_true, reduceCtorEq, false_iff]
    rintro ⟨enough, same, _⟩
    exact short ⟨enough, same⟩
  · have enough : atLeast.toNat ≤ whens.toNat ∧ thens.toNat = whens.toNat := by
      simp only [UInt32.lt_iff_toNat_lt] at lacking
      omega
    simp only [Bool.or_eq_true, decide_eq_true_eq, lacking, if_false, enough, true_and]
    cases split.current <;> simp [checkSkipCurrent]

theorem after_skip {next : Obligation Action}
    (paired : PairedTo atLeast atMost trigger consequence moves split reached)
    (skipped : reached.skip = .ok next) :
    next.isFinal = true ∧ ∃ whens : UInt32, whens.toNat = started .trigger split.blocks ∧
      next = .whenThen trigger consequence atLeast whens whens whens none := by
  obtain ⟨permitted, rfl⟩ := skip_eq_ok_iff.mp skipped
  obtain ⟨_, settled, _⟩ := paired.checkSkip_iff.mp permitted
  obtain ⟨whens, thens, triggers, consequences, rfl⟩ := paired.node
  have same : thens = whens := by rw [← UInt32.toNat_inj, triggers, consequences, settled]
  subst same
  exact ⟨by simp [afterSkip, isFinal], thens, triggers, rfl⟩

end PairedTo

/-- What a pairing takes, whatever its two halves. The moves it accepts are runs of the trigger and of
the consequence, each but the last to its end; the consequence goes first wherever one is owed and
accepts the move. The node counts the runs that were begun and shows what has become of the last. It is
final when `atMost` triggers have all been answered, and may be skipped once `atLeast` have; what is
skipped is final with the triggers it has had. -/
theorem whenThen_trace (triggerValid : trigger.validate = .ok ())
    (consequenceValid : consequence.validate = .ok ()) (triggerOpen : trigger.isFinal = false)
    (consequenceOpen : consequence.isFinal = false) (bounds : atLeast ≤ atMost) :
    ∃ fresh, buildWhenThen trigger consequence atLeast atMost = .ok fresh ∧
      (∀ moves reached, applyAll perform moves fresh = .ok reached ↔
        ∃ split, PairedTo atLeast atMost trigger consequence moves split reached) ∧
      (∀ earlier later reached, applyAll perform (earlier ++ later) fresh = .ok reached →
        ∃ split between, PairedTo atLeast atMost trigger consequence earlier split between ∧
          applyAll perform later between = .ok reached) ∧
      (∀ moves split split' reached reached',
        PairedTo atLeast atMost trigger consequence moves split reached →
        PairedTo atLeast atMost trigger consequence moves split' reached' → split = split') ∧
      (∀ moves split reached, PairedTo atLeast atMost trigger consequence moves split reached →
        (reached.isFinal = true ↔ split.current = none ∧
          started .consequence split.blocks = started .trigger split.blocks ∧
          started .trigger split.blocks = atMost.toNat) ∧
        (reached.skip.isOk = true ↔ atLeast.toNat ≤ started .trigger split.blocks ∧
          started .consequence split.blocks = started .trigger split.blocks ∧
          ∀ block ∈ split.current, block.left.checkSkip = .ok ()) ∧
        (∀ next, reached.skip = .ok next → next.isFinal = true ∧
          ∃ whens : UInt32, whens.toNat = started .trigger split.blocks ∧
            next = .whenThen trigger consequence atLeast whens whens whens none)) := by
  rw [validate_eq_ok_iff] at triggerValid consequenceValid
  have built : buildWhenThen trigger consequence atLeast atMost =
      .ok (freshWhenThen trigger consequence atLeast atMost) := by
    simp [buildWhenThen, bounds, triggerOpen, consequenceOpen, require, bind_unit_eq_ok, pure,
      Except.pure]
  have trace (moves : List Action) (reached : Obligation Action) :
      applyAll perform moves (freshWhenThen trigger consequence atLeast atMost) = .ok reached ↔
        ∃ split, PairedTo atLeast atMost trigger consequence moves split reached := by
    simp only [pairedTo_iff]
    exact (occurrences_relay triggerValid consequenceValid).trace moves reached
  refine ⟨_, built, trace, ?_, ?_, ?_⟩
  · intro earlier later reached ran
    obtain ⟨between, first, rest⟩ := applyAll_append_eq_ok.mp ran
    obtain ⟨split, paired⟩ := (trace earlier between).mp first
    exact ⟨split, between, paired, rest⟩
  · intro moves split split' reached reached' paired paired'
    obtain ⟨sameMoves, allowed, _⟩ := pairedTo_iff.mp paired
    obtain ⟨sameMoves', allowed', _⟩ := pairedTo_iff.mp paired'
    exact Split.eq_of_moves_eq mayPair_decides allowed allowed' (sameMoves.trans sameMoves'.symm)
  · intro moves split reached paired
    exact ⟨paired.isFinal_iff, skip_isOk_iff.trans paired.checkSkip_iff, fun _ => paired.after_skip⟩

theorem whenThen_trace_preferred :
    let single : Obligation Scripted.Action := mandatory .a
    let pair : Obligation Scripted.Action := freshAny [mandatory .a, mandatory .b]
    single.validate = .ok () ∧ pair.validate = .ok () ∧ single.isFinal = false ∧
      pair.isFinal = false ∧ (1 : UInt32) ≤ 2 ∧
      ∃ fresh reached, buildWhenThen single pair 1 2 = .ok fresh ∧
        applyAll perform [.a, .a] fresh = .ok reached ∧
        ∃ split, PairedTo 1 2 single pair [.a, .a] split reached ∧
          started .trigger split.blocks = 1 ∧ started .consequence split.blocks = 1 := by
  intro single pair
  have bounds : (1 : UInt32) ≤ 2 := by decide
  have singleValid : single.validate = .ok () := rfl
  have pairValid : pair.validate = .ok () := rfl
  obtain ⟨fresh, built, trace, _⟩ := whenThen_trace singleValid pairValid rfl rfl bounds
  obtain rfl : freshWhenThen single pair 1 2 = fresh := Except.ok.inj built
  let reached := Obligation.whenThen single pair 1 2 1 1 (some (.any [mandatory .b] none))
  have ran : applyAll perform [.a, .a] (freshWhenThen single pair 1 2) = .ok reached := by rfl
  obtain ⟨split, paired⟩ := (trace _ _).mp ran
  refine ⟨singleValid, pairValid, rfl, rfl, bounds, _, reached, built, ran, split, paired, ?_⟩
  obtain ⟨whens, thens, triggers, consequences, same⟩ := paired.node
  obtain ⟨-, -, -, -, oneTrigger, oneConsequence, -⟩ := Obligation.whenThen.inj same
  rw [← triggers, ← consequences, ← oneTrigger, ← oneConsequence]
  exact ⟨rfl, rfl⟩

end TurnObligations.Obligation
