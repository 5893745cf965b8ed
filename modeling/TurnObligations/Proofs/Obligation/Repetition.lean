import TurnObligations.Proofs.Obligation.Blocks
import TurnObligations.Proofs.Obligation.Built
import TurnObligations.Proofs.Invariant

/-!
What a `repeated` node has been through, told from its moves alone: so many runs of the template that
came to their end, and one that may still be open.
-/

namespace TurnObligations.Obligation

variable {Action : Type} [DecidableEq Action]

abbrev Iterations (template : Obligation Action) := Split fun _ : Unit => template

variable {template : Obligation Action} {atLeast atMost : UInt32}

def roomFor (atMost : UInt32) (before : List (Block fun _ : Unit => template)) (_ : Unit)
    (_ : Action) : Prop := before.length < atMost.toNat

theorem allowed_roomFor {blocks : List (Block fun _ : Unit => template)} :
    Allowed (roomFor atMost) blocks ↔ blocks.length ≤ atMost.toNat := by
  rcases List.eq_nil_or_concat blocks with rfl | ⟨front, last, rfl⟩
  · exact iff_of_true (by simp [Allowed]) (Nat.zero_le _)
  · rw [List.concat_eq_append]
    constructor
    · intro allowed
      have room : front.length < atMost.toNat := allowed front last [] rfl
      simp only [List.length_append, List.length_singleton]
      omega
    · intro fits before block after shape
      have lengths := congrArg List.length shape
      simp only [List.length_append, List.length_cons] at lengths fits
      show before.length < atMost.toNat
      omega

namespace Iterations

def node (atLeast atMost : UInt32) (split : Iterations template) : Obligation Action :=
  .repeated atLeast atMost template (split.current.map Block.left) (UInt32.ofNat split.closed.length)

theorem length_add_closed (split : Iterations template) (block : Block fun _ : Unit => template) :
    (split.add block).closed.length = split.closed.length + if block.left.isFinal then 1 else 0 := by
  rw [Split.add]
  split
  · simp
  · simp

theorem node_add (split : Iterations template) (block : Block fun _ : Unit => template) :
    node atLeast atMost (split.add block) =
      .repeated atLeast atMost template (stillOpen block.left)
        (UInt32.ofNat (split.closed.length + if block.left.isFinal then 1 else 0)) := by
  rw [node, Split.add_current, length_add_closed]

end Iterations

/-! ### One move -/

omit [DecidableEq Action] in
theorem afterIteration_ofNat {number : Nat} (room : number < atMost.toNat)
    (template next : Obligation Action) :
    (if next.isFinal then do
        return repeated atLeast atMost template none (← Counter.add32 (UInt32.ofNat number) 1)
      else return repeated atLeast atMost template (some next) (UInt32.ofNat number) :
        Except (Stop Action) (Obligation Action)) =
      .ok (repeated atLeast atMost template (stillOpen next)
        (UInt32.ofNat (number + if next.isFinal then 1 else 0))) := by
  cases final : next.isFinal with
  | false => simp [stillOpen, final, pure, Except.pure]
  | true =>
      simp only [if_true, add32_ofNat room, lift_ok, ok_bind, stillOpen, final]
      rfl

theorem perform_iteration_iff {action : Action} {current reached : Obligation Action} {number : Nat}
    (room : number < atMost.toNat) :
    (repeated atLeast atMost template (some current) (UInt32.ofNat number)).perform action =
        .ok reached ↔
      ∃ next, current.perform action = .ok next ∧
        repeated atLeast atMost template (stillOpen next)
          (UInt32.ofNat (number + if next.isFinal then 1 else 0)) = reached := by
  rw [perform, bind_eq_ok]
  simp only [afterIteration_ofNat room, Except.ok.injEq]

theorem perform_template_iff {action : Action} {reached : Obligation Action} {number : Nat}
    (fits : number ≤ atMost.toNat) :
    (repeated atLeast atMost template none (UInt32.ofNat number)).perform action = .ok reached ↔
      number < atMost.toNat ∧ ∃ next, template.perform action = .ok next ∧
        repeated atLeast atMost template (stillOpen next)
          (UInt32.ofNat (number + if next.isFinal then 1 else 0)) = reached := by
  have full : atMost ≤ UInt32.ofNat number ↔ ¬number < atMost.toNat := by
    rw [UInt32.le_iff_toNat_le, toNat_ofNat_of_le fits, Nat.not_lt]
  rw [perform]
  by_cases room : number < atMost.toNat
  · rw [if_neg (by simp [full, room]), bind_eq_ok]
    simp only [afterIteration_ofNat room, Except.ok.injEq, room, true_and]
  · rw [if_pos (full.mpr room)]
    simp [refusePerform, room]

theorem iterations_relay :
    Relays (roomFor atMost)
      (Iterations.node atLeast atMost : Iterations template → Obligation Action) := by
  intro split allowed action reached
  rw [allowed_roomFor] at allowed
  cases inProgress : split.current with
  | none =>
      have fits : split.closed.length ≤ atMost.toNat := by
        simpa [Split.blocks, inProgress] using allowed
      rw [Iterations.node, inProgress, Option.map_none, perform_template_iff fits,
        exists_next_begun inProgress]
      constructor
      · rintro ⟨room, next, performed, rfl⟩
        exact ⟨(), next, performed, room, Iterations.node_add ..⟩
      · rintro ⟨_, next, performed, room, rfl⟩
        refine ⟨room, next, performed, ?_⟩
        rw [Iterations.node_add]
        rfl
  | some block =>
      have room : split.closed.length < atMost.toNat := by
        simp only [Split.blocks, inProgress, Option.toList_some, List.length_append,
          List.length_singleton] at allowed
        omega
      rw [Iterations.node, inProgress, Option.map_some, perform_iteration_iff room,
        exists_next_resumed inProgress]
      constructor
      · rintro ⟨next, performed, rfl⟩
        exact ⟨next, performed, Iterations.node_add ..⟩
      · rintro ⟨next, performed, rfl⟩
        refine ⟨next, performed, ?_⟩
        rw [Iterations.node_add]
        rfl

/-! ### What the moves make of the node -/

/-- The moves split into these iterations, at most `atMost` of them, and `reached` is the node that has
been through them. -/
structure IteratedTo (atLeast atMost : UInt32) (template : Obligation Action) (moves : List Action)
    (split : Iterations template) (reached : Obligation Action) : Prop where
  moves : split.moves = moves
  bound : split.closed.length ≤ atMost.toNat
  room : split.closed.length = atMost.toNat → split.current = none
  node : ∃ count : UInt32, count.toNat = split.closed.length ∧
    reached = .repeated atLeast atMost template (split.current.map Block.left) count

variable {moves : List Action} {split : Iterations template} {reached : Obligation Action}

theorem iteratedTo_iff : IteratedTo atLeast atMost template moves split reached ↔
    split.moves = moves ∧ Allowed (roomFor atMost) split.blocks ∧
      split.node atLeast atMost = reached := by
  rw [allowed_roomFor, Split.blocks, List.length_append]
  constructor
  · rintro ⟨rfl, bound, room, count, counts, rfl⟩
    have same : count = UInt32.ofNat split.closed.length := by
      rw [← UInt32.toNat_inj, counts, toNat_ofNat_of_le bound]
    refine ⟨rfl, ?_, by rw [Iterations.node, same]⟩
    cases inProgress : split.current with
    | none => simpa using bound
    | some block =>
        have short : split.closed.length ≠ atMost.toNat := by simp [inProgress] at room; exact room
        simp only [Option.toList_some, List.length_singleton]
        omega
  · rintro ⟨rfl, fits, rfl⟩
    have bound : split.closed.length ≤ atMost.toNat := by omega
    refine ⟨rfl, bound, ?_, _, toNat_ofNat_of_le bound, rfl⟩
    intro full
    cases inProgress : split.current with
    | none => rfl
    | some block =>
        simp only [inProgress, Option.toList_some, List.length_singleton] at fits
        omega

theorem iterations_trace (moves : List Action) (reached : Obligation Action) :
    applyAll perform moves (freshRepeat atLeast atMost template) = .ok reached ↔
      ∃ split, IteratedTo atLeast atMost template moves split reached := by
  simp only [iteratedTo_iff]
  exact iterations_relay.trace moves reached

namespace IteratedTo

theorem isFinal_iff (iterated : IteratedTo atLeast atMost template moves split reached) :
    reached.isFinal = true ↔ split.closed.length = atMost.toNat ∧ split.current = none := by
  obtain ⟨count, counts, rfl⟩ := iterated.node
  rw [isFinal, Bool.and_eq_true, beq_iff_eq, Option.isNone_map, Option.isNone_iff_eq_none,
    ← UInt32.toNat_inj, counts, and_comm]

theorem checkSkip_iff (iterated : IteratedTo atLeast atMost template moves split reached) :
    reached.checkSkip = .ok () ↔
      atLeast.toNat ≤ split.closed.length ∧ ∀ block ∈ split.current, block.left.checkSkip = .ok () := by
  obtain ⟨count, counts, rfl⟩ := iterated.node
  rw [checkSkip, ← counts]
  by_cases few : count < atLeast
  · have short : ¬atLeast.toNat ≤ count.toNat := Nat.not_le.mpr (UInt32.lt_iff_toNat_lt.mp few)
    simp [few, short]
  · have enough : atLeast.toNat ≤ count.toNat :=
      UInt32.le_iff_toNat_le.mp (UInt32.not_lt.mp few)
    rw [if_neg few]
    cases split.current <;> simp [checkSkipCurrent, enough]

theorem skip_frozen {next : Obligation Action}
    (iterated : IteratedTo atLeast atMost template moves split reached)
    (skipped : reached.skip = .ok next) :
    atLeast.toNat ≤ split.closed.length ∧ ∃ count : UInt32, count.toNat = split.closed.length ∧
      next = .repeated atLeast count template none count := by
  obtain ⟨permitted, rfl⟩ := skip_eq_ok_iff.mp skipped
  refine ⟨(iterated.checkSkip_iff.mp permitted).1, ?_⟩
  obtain ⟨count, counts, rfl⟩ := iterated.node
  exact ⟨count, counts, rfl⟩

end IteratedTo

/-! ### With skips -/

/-- A repeat that has been skipped: what was complete by then is all that it will ever be. -/
def Frozen (atLeast : UInt32) (split : Iterations template) (reached : Obligation Action) : Prop :=
  atLeast.toNat ≤ split.closed.length ∧ ∃ count : UInt32, count.toNat = split.closed.length ∧
    reached = .repeated atLeast count template none count

theorem Frozen.isFinal (frozen : Frozen atLeast split reached) : reached.isFinal = true := by
  obtain ⟨_, count, _, rfl⟩ := frozen
  simp [Obligation.isFinal]

theorem Frozen.skip {next : Obligation Action} (frozen : Frozen atLeast split reached)
    (skipped : reached.skip = .ok next) : next = reached := by
  obtain ⟨_, count, _, rfl⟩ := frozen
  exact (skip_eq_ok_iff.mp skipped).2.symm

theorem iterated_or_frozen {commands : List (Command Action)}
    (ran : applyAll apply commands (freshRepeat atLeast atMost template) = .ok reached) :
    ∃ split : Iterations template, split.moves = commands.filterMap Command.move? ∧
      (IteratedTo atLeast atMost template (commands.filterMap Command.move?) split reached ∨
        Frozen atLeast split reached) := by
  -- from the last command back: what precedes it is a run of its own, to which the trace applies
  induction commands using List.reverseRecOn generalizing reached with
  | nil =>
      obtain ⟨split, iterated⟩ := (iterations_trace [] reached).mp ran
      exact ⟨split, iterated.moves, .inl iterated⟩
  | append_singleton commands command ih =>
      obtain ⟨between, before, applied⟩ := applyAll_concat_eq_ok.mp ran
      obtain ⟨split, sameMoves, reaches⟩ := ih before
      rw [List.filterMap_append]
      cases command with
      | perform action =>
          rcases reaches with iterated | frozen
          · have longer := applyAll_concat_eq_ok.mpr
              ⟨between, (iterations_trace _ between).mpr ⟨split, iterated⟩, applied⟩
            obtain ⟨next, iterated⟩ := (iterations_trace _ reached).mp longer
            exact ⟨next, iterated.moves, .inl iterated⟩
          · exact absurd applied (perform_of_isFinal frozen.isFinal action reached)
      | skip =>
          refine ⟨split, sameMoves.trans (List.append_nil _).symm, .inr ?_⟩
          rcases reaches with iterated | frozen
          · exact iterated.skip_frozen applied
          · exact frozen.skip applied ▸ frozen

/-- What a repeat takes, whatever the template. The moves it accepts are the runs of the template to
the end, one after another and at most `atMost` of them, with an open run behind them if there is
room for one; no moves split in two ways. The node shows how many are complete and what has become of
the open one. It is final when `atMost` are complete and none is open; it may be skipped once `atLeast`
are, if the open one may be, and is then final with what is complete. Skips or not, it is never final
with fewer than `atLeast`. -/
theorem repeated_trace (unresolved : template.isFinal = false) (bounds : atLeast ≤ atMost) :
    ∃ fresh, buildRepeat atLeast atMost template = .ok fresh ∧
      (∀ moves reached, applyAll perform moves fresh = .ok reached ↔
        ∃ split, IteratedTo atLeast atMost template moves split reached) ∧
      (∀ split : Iterations template, split.closed.length ≤ atMost.toNat →
        (split.closed.length = atMost.toNat → split.current = none) →
        ∃ reached, applyAll perform split.moves fresh = .ok reached) ∧
      (∀ split split' : Iterations template, split.moves = split'.moves → split = split') ∧
      (∀ moves split reached, IteratedTo atLeast atMost template moves split reached →
        (reached.isFinal = true ↔ split.closed.length = atMost.toNat ∧ split.current = none) ∧
        (reached.skip.isOk = true ↔ atLeast.toNat ≤ split.closed.length ∧
          ∀ block ∈ split.current, block.left.checkSkip = .ok ()) ∧
        (∀ next, reached.skip = .ok next → next.isFinal = true ∧
          ∃ count : UInt32, count.toNat = split.closed.length ∧
            next = .repeated atLeast count template none count)) ∧
      (∀ (commands : List (Command Action)) reached,
        applyAll apply commands fresh = .ok reached → reached.isFinal = true →
          ∃ (split : Iterations template) (count : UInt32),
            split.moves = commands.filterMap Command.move? ∧
            count.toNat = split.closed.length ∧ atLeast.toNat ≤ split.closed.length ∧
            reached = .repeated atLeast count template none count) := by
  have built : buildRepeat atLeast atMost template = .ok (freshRepeat atLeast atMost template) := by
    simp [buildRepeat, bounds, unresolved, require, bind_unit_eq_ok, pure, Except.pure]
  refine ⟨_, built, iterations_trace, ?_, ?_, ?_, ?_⟩
  · intro split bound room
    have iterated : IteratedTo atLeast atMost template split.moves split (split.node atLeast atMost) :=
      ⟨rfl, bound, room, _, toNat_ofNat_of_le bound, rfl⟩
    exact ⟨_, (iterations_trace _ _).mpr ⟨split, iterated⟩⟩
  · intro split split' same
    have free (split : Iterations template) : Allowed (fun _ _ _ => True) split.blocks :=
      fun _ _ _ _ => trivial
    exact Split.eq_of_moves_eq (fun _ _ _ _ _ _ => rfl) (free split) (free split') same
  · intro moves split reached iterated
    refine ⟨iterated.isFinal_iff, ?_, ?_⟩
    · rw [← iterated.checkSkip_iff]
      exact skip_isOk_iff
    · intro next skipped
      have frozen : Frozen atLeast split next := iterated.skip_frozen skipped
      exact ⟨frozen.isFinal, frozen.2⟩
  · intro commands reached ran final
    obtain ⟨split, sameMoves, iterated | ⟨enough, count, counts, rfl⟩⟩ := iterated_or_frozen ran
    · obtain ⟨full, rests⟩ := iterated.isFinal_iff.mp final
      obtain ⟨count, counts, rfl⟩ := iterated.node
      have whole : count = atMost := UInt32.toNat_inj.mp (counts.trans full)
      have ordered := UInt32.le_iff_toNat_le.mp bounds
      exact ⟨split, count, sameMoves, counts, by omega, by rw [rests, whole]; rfl⟩
    · exact ⟨split, count, sameMoves, counts, enough, rfl⟩

theorem repeated_trace_halfway :
    let pair : Obligation Scripted.Action := freshAny [mandatory .a, mandatory .b]
    pair.isFinal = false ∧ (1 : UInt32) ≤ 2 ∧
      ∃ fresh reached, buildRepeat 1 2 pair = .ok fresh ∧
        applyAll perform [.a, .b, .b] fresh = .ok reached ∧
        ∃ split, IteratedTo 1 2 pair [.a, .b, .b] split reached ∧ split.closed.length = 1 := by
  intro pair
  have unresolved : pair.isFinal = false := rfl
  have bounds : (1 : UInt32) ≤ 2 := by decide
  obtain ⟨fresh, built, trace, _⟩ := repeated_trace unresolved bounds
  obtain rfl : freshRepeat 1 2 pair = fresh := Except.ok.inj built
  let reached := Obligation.repeated 1 2 pair (some (.any [mandatory .a] none)) 1
  have ran : applyAll perform [.a, .b, .b] (freshRepeat 1 2 pair) = .ok reached := by rfl
  obtain ⟨split, iterated⟩ := (trace _ _).mp ran
  refine ⟨unresolved, bounds, _, reached, built, ran, split, iterated, ?_⟩
  obtain ⟨count, counts, same⟩ := iterated.node
  rw [← counts, ← (Obligation.repeated.inj same).2.2.2.2]
  rfl

end TurnObligations.Obligation
