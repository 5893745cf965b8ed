import TurnObligations.Proofs.Queue.Perform

/-!
Runs of commands on a queue. Skips get shorter and shorter, nothing pushed shifts the slot in progress
off its obligation, and the queue stays valid as long as its trees fit in memory.
-/

namespace TurnObligations.Queue

open Container (skipUntilEmpty_faultless skipUntilEmpty_preserves)
open Obligation (skipsLeftAll)

variable {Action : Type} {queue : Queue Action}

/-! ### Skipping -/

def Skippable (queue : Queue Action) : Prop :=
  match queue.skipTarget with
  | some slot => ∃ tree, queue.get? slot = some tree ∧ tree.checkSkip = .ok ()
  | none => queue.anyTime ≠ []

theorem skipTarget_cases (valid : queue.Valid) :
    (∃ slot tree, queue.skipTarget = some slot ∧ queue.get? slot = some tree) ∨
      (queue.skipTarget = none ∧ queue.order = []) := by
  rw [skipTarget, front?]
  cases current : queue.current with
  | some slot =>
      obtain ⟨tree, here, _⟩ := valid.slot slot current
      exact .inl ⟨slot, tree, rfl, here⟩
  | none =>
      cases order : queue.order with
      | nil => exact .inr ⟨rfl, rfl⟩
      | cons front rest => exact .inl ⟨.queue 0, front, rfl, by simp [get?, order]⟩

theorem canSkip_answers (valid : queue.Valid) : Answers queue.canSkip queue.Skippable := by
  rcases skipTarget_cases valid with ⟨slot, tree, target, here⟩ | ⟨target, _⟩
  · simp only [canSkip, Skippable, target, here]
    exact (Obligation.canSkip_answers (valid.at here)).congr (by simp)
  · simp only [canSkip, Skippable, target]
    exact (Answers.decided _).congr (by simp)

theorem skip_cases (valid : queue.Valid) :
    (queue.Skippable ∧
      ((∃ slot tree, queue.get? slot = some tree ∧ tree.checkSkip = .ok () ∧
        queue.skip = .ok ((queue.settle slot tree.afterSkip).release).dropIdle) ∨
      (queue.trees ≠ [] ∧ queue.skip = .ok empty))) ∨
    (¬queue.Skippable ∧ ∃ refusal, queue.skip = .error (.refused refusal)) := by
  rcases skipTarget_cases valid with ⟨slot, tree, target, here⟩ | ⟨target, order⟩
  · simp only [skip, Skippable, target, here, Option.some.injEq, exists_eq_left']
    cases checked : tree.checkSkip with
    | ok =>
        refine .inl ⟨rfl, .inl ⟨slot, tree, here, checked, ?_⟩⟩
        rw [Obligation.skip_eq_ok_iff.mpr ⟨checked, rfl⟩]
        rfl
    | error stop =>
        cases stop with
        | refused refusal =>
            refine .inr ⟨by simp, refusal, ?_⟩
            rw [Obligation.skip_eq_error_iff.mpr checked]
            rfl
        | faulted fault => exact absurd checked (Obligation.checkSkip_faultless (valid.at here) fault)
  · simp only [skip, Skippable, target]
    cases pool : queue.anyTime with
    | nil => exact .inr ⟨by simp, .nothingAvailable, rfl⟩
    | cons first rest =>
        refine .inl ⟨by simp, .inr ⟨by simp [trees, pool], ?_⟩⟩
        simp [dropIdle, order]

theorem skip_eq_ok {next : Queue Action} (skipped : queue.skip = .ok next) :
    (∃ slot tree left, queue.skipTarget = some slot ∧ queue.get? slot = some tree ∧
      tree.skip = .ok left ∧ ((queue.settle slot left).release).dropIdle = next) ∨
    (queue.current = none ∧ queue.order = [] ∧ queue.dropIdle = next) := by
  rw [skip] at skipped
  split at skipped
  · next slot target =>
      split at skipped
      · cases skipped
      · next tree here =>
          obtain ⟨left, done, settled⟩ := bind_eq_ok.mp skipped
          exact .inl ⟨slot, tree, left, target, here, done, Except.ok.inj settled⟩
  · next target =>
      split at skipped
      · cases skipped
      · obtain ⟨released, front⟩ := Option.or_eq_none_iff.mp target
        have order : queue.order = [] := by simpa [front?] using front
        exact .inr ⟨released, order, Except.ok.inj skipped⟩

theorem skip_faultless (valid : queue.Valid) : Faultless queue.skip := by
  rcases skip_cases valid with ⟨_, ⟨_, _, _, _, skipped⟩ | ⟨_, skipped⟩⟩ | ⟨_, _, refused⟩
  · exact faultless_of_ok skipped
  · exact faultless_of_ok skipped
  · exact faultless_of_refused refused

theorem release_valid (valid : queue.Valid) : queue.release.Valid :=
  ⟨valid.trees, by simp [release]⟩

theorem dropIdle_valid (valid : queue.Valid) : queue.dropIdle.Valid := by
  rw [dropIdle]
  split
  · exact empty_valid
  · exact valid

theorem skipsLeftAll_dropIdle_le (queue : Queue Action) :
    skipsLeftAll queue.dropIdle.trees ≤ skipsLeftAll queue.trees := by
  rw [dropIdle]
  split
  · simp [trees, empty, skipsLeftAll]
  · exact Nat.le_refl _

theorem skipsLeftAll_settle_lt {slot : QueueSlot} {tree : Obligation Action}
    (here : queue.get? slot = some tree) (treeValid : tree.Valid)
    (permitted : tree.checkSkip = .ok ()) :
    skipsLeftAll (queue.settle slot tree.afterSkip).trees < skipsLeftAll queue.trees := by
  obtain ⟨before, after, shape, shape'⟩ := settle_trees here tree.afterSkip
  have fewer := Obligation.skipsLeftAll_stillOpen_lt treeValid permitted
  rw [shape, shape']
  simp only [Obligation.skipsLeftAll_append, Obligation.skipsLeftAll_cons]
  omega

theorem skip_shrinks {next : Queue Action} (valid : queue.Valid) (skipped : queue.skip = .ok next) :
    next.Valid ∧ skipsLeftAll next.trees < skipsLeftAll queue.trees := by
  rcases skip_cases valid with
    ⟨_, ⟨slot, tree, here, permitted, result⟩ | ⟨pending, result⟩⟩ | ⟨_, refusal, refused⟩
  · rw [skipped, Except.ok.injEq] at result
    subst result
    have treeValid := valid.at here
    have leftValid := Obligation.afterSkip_valid treeValid permitted
    refine ⟨dropIdle_valid (release_valid (settle_valid valid here leftValid)), ?_⟩
    calc
      skipsLeftAll ((queue.settle slot tree.afterSkip).release).dropIdle.trees
          ≤ skipsLeftAll (queue.settle slot tree.afterSkip).release.trees :=
        skipsLeftAll_dropIdle_le _
      _ < skipsLeftAll queue.trees := skipsLeftAll_settle_lt here treeValid permitted
  · rw [skipped, Except.ok.injEq] at result
    subst result
    refine ⟨empty_valid, ?_⟩
    have some := Obligation.skipsLeftAll_bounds queue.trees
    have positive := List.length_pos_iff.mpr pending
    simp only [trees, empty, List.append_nil, skipsLeftAll] at some positive ⊢
    omega
  · rw [skipped] at refused
    cases refused

theorem length_dropIdle_le (queue : Queue Action) : queue.dropIdle.length ≤ queue.length := by
  rw [dropIdle]
  split
  · exact Nat.zero_le _
  · exact Nat.le_refl _

theorem skip_length_le {next : Queue Action} (valid : queue.Valid)
    (skipped : queue.skip = .ok next) : next.length ≤ queue.length := by
  rcases skip_cases valid with
    ⟨_, ⟨slot, tree, here, _, result⟩ | ⟨_, result⟩⟩ | ⟨_, refusal, refused⟩
  · rw [skipped, Except.ok.injEq] at result
    subst result
    exact Nat.le_trans (length_dropIdle_le _) (settle_length_le here tree.afterSkip)
  · rw [skipped, Except.ok.injEq] at result
    subst result
    exact Nat.zero_le _
  · rw [skipped] at refused
    cases refused

theorem isEmpty_of_skipsLeft (queue : Queue Action) (none : skipsLeftAll queue.trees = 0) :
    queue.isEmpty = true := by
  have bounds := Obligation.skipsLeftAll_bounds queue.trees
  rw [length_trees] at bounds
  rw [isEmpty, beq_iff_eq]
  omega

theorem skipAll_faultless (valid : queue.Valid) : Faultless queue.skipAll := by
  have bounds := Obligation.skipsLeftAll_bounds queue.trees
  rw [length_trees] at bounds
  exact skipUntilEmpty_faultless isEmpty_of_skipsLeft (fun _ => skip_faultless)
    (fun _ _ => skip_shrinks) valid (by omega)

/-! ### Pushing -/

theorem shift_ok (count : Nat) (slot : Option QueueSlot)
    (fits : ∀ index, slot = some (.queue index) → index.toNat + count < UInt64.size) :
    ∃ shifted, shift count slot = .ok shifted := by
  match slot with
  | none => exact ⟨none, rfl⟩
  | some (.anyTime index) => exact ⟨some (.anyTime index), rfl⟩
  | some (.queue index) =>
      have advanced : Counter.advance index count = .ok (UInt64.ofNat (index.toNat + count)) :=
        if_pos (fits index rfl)
      exact ⟨_, by rw [shift, advanced]; rfl⟩

theorem shift_cases {count : Nat} {slot shifted : Option QueueSlot}
    (moved : shift count slot = .ok shifted) :
    (∃ index advanced, slot = some (.queue index) ∧ shifted = some (.queue advanced) ∧
        advanced.toNat = index.toNat + count) ∨
      ((∀ index, slot ≠ some (.queue index)) ∧ shifted = slot) := by
  match slot with
  | none =>
      cases moved
      exact .inr ⟨nofun, rfl⟩
  | some (.anyTime index) =>
      cases moved
      exact .inr ⟨nofun, rfl⟩
  | some (.queue index) =>
      obtain ⟨advanced, added, moved⟩ := bind_eq_ok.mp moved
      cases moved
      exact .inl ⟨index, advanced, rfl, rfl, Counter.toNat_of_advance added⟩

theorem get?_of_shift {front : List (Obligation Action)} {shifted : Option QueueSlot}
    (moved : shift front.length queue.current = .ok shifted) :
    ∀ slot' ∈ shifted, ∃ slot ∈ queue.current,
      get? ⟨queue.anyTime, front ++ queue.order, shifted, queue.room⟩ slot' = queue.get? slot := by
  intro slot' member
  rcases shift_cases moved with ⟨index, advanced, current, rfl, place⟩ | ⟨pooled, rfl⟩
  · cases member
    refine ⟨.queue index, current, ?_⟩
    have behind : front.length ≤ advanced.toNat := by omega
    simp only [get?]
    rw [List.getElem?_append_right behind, place, Nat.add_sub_cancel]
  · refine ⟨slot', member, ?_⟩
    cases slot' with
    | anyTime index => rfl
    | queue index => exact absurd member (pooled index)

theorem push_eq_ok_iff {pushed : List (Obligation Action)} {next : Queue Action} :
    queue.push pushed = .ok next ↔
      ∃ shifted,
        shift (pushed.filter fun tree => !tree.isFinal).length queue.current = .ok shifted ∧
        ⟨queue.anyTime, (pushed.filter fun tree => !tree.isFinal) ++ queue.order, shifted,
          queue.room⟩ = next := by
  rw [push_eq]
  cases shift _ queue.current <;> simp [Except.map]

theorem push_valid {pushed : List (Obligation Action)} {next : Queue Action} (valid : queue.Valid)
    (pushedValid : ∀ tree ∈ pushed, tree.Valid) (done : queue.push pushed = .ok next) :
    next.Valid ∧ next.length ≤ queue.length + pushed.length := by
  obtain ⟨shifted, moved, rfl⟩ := push_eq_ok_iff.mp done
  refine ⟨⟨?_, ?_⟩, ?_⟩
  · intro tree member
    simp only [trees, List.mem_append, List.mem_filter] at member
    rcases member with pooled | ⟨new, _⟩ | ordered
    · exact valid.trees tree (List.mem_append_left _ pooled)
    · exact pushedValid tree new
    · exact valid.trees tree (List.mem_append_right _ ordered)
  · intro slot' member
    obtain ⟨slot, current, same⟩ := get?_of_shift moved slot' member
    rw [same]
    exact valid.slot slot current
  · have fewer := List.length_filter_le (fun tree : Obligation Action => !tree.isFinal) pushed
    simp only [length, List.length_append]
    omega

theorem push_returns {pushed : List (Obligation Action)}
    (inRange : ∀ slot ∈ queue.current, ∃ tree, queue.get? slot = some tree)
    (fits : ((pushed.filter fun tree => !tree.isFinal) ++ queue.order).length ≤
      Obligation.capacity) :
    ∃ next, queue.push pushed = .ok next := by
  have places : ∀ index, queue.current = some (.queue index) →
      index.toNat + (pushed.filter fun tree => !tree.isFinal).length < UInt64.size := by
    intro index current
    obtain ⟨tree, here⟩ := inRange _ current
    have bound : index.toNat < queue.order.length := (List.getElem?_eq_some_iff.mp here).1
    simp only [List.length_append, Obligation.capacity] at fits
    omega
  obtain ⟨shifted, moved⟩ := shift_ok _ _ places
  exact ⟨_, push_eq_ok_iff.mpr ⟨shifted, moved, rfl⟩⟩

theorem push_goes_through {pushed : List (Obligation Action)} (valid : queue.Valid)
    (fits : queue.length + pushed.length ≤ Obligation.capacity) :
    ∃ next, queue.push pushed = .ok next := by
  have fewer := List.length_filter_le (fun tree : Obligation Action => !tree.isFinal) pushed
  refine push_returns (fun slot current => (valid.slot slot current).imp fun _ => And.left) ?_
  simp only [length] at fits
  rw [List.length_append]
  omega

theorem pushAnyTime_valid {tree : Obligation Action} {next : Queue Action} (valid : queue.Valid)
    (treeValid : tree.Valid) (done : queue.pushAnyTime tree = .ok next) :
    next.Valid ∧ next.length ≤ queue.length + 1 := by
  rw [pushAnyTime] at done
  split at done
  · cases done
    exact ⟨valid, Nat.le_succ _⟩
  · split at done
    · cases done
      refine ⟨⟨?_, ?_⟩, ?_⟩
      · intro other member
        simp only [trees, List.append_assoc, List.mem_append, List.mem_singleton] at member
        rcases member with pooled | rfl | ordered
        · exact valid.trees other (List.mem_append_left _ pooled)
        · exact treeValid
        · exact valid.trees other (List.mem_append_right _ ordered)
      · intro slot current
        obtain ⟨part, here, unresolved⟩ := valid.slot slot current
        refine ⟨part, ?_, unresolved⟩
        cases slot with
        | anyTime index =>
            have bound := (List.getElem?_eq_some_iff.mp here).1
            exact (List.getElem?_append_left bound).trans here
        | queue index => exact here
      · simp only [length, List.length_append, List.length_singleton]
        omega
    · cases done

theorem pushAnyTime_goes_through {tree : Obligation Action}
    (fits : queue.length + 1 ≤ Obligation.capacity) :
    ∃ next, queue.pushAnyTime tree = .ok next := by
  rw [pushAnyTime]
  split
  · exact ⟨_, rfl⟩
  · have room : (queue.anyTime ++ [tree]).length ≤ Obligation.capacity := by
      simp only [length] at fits
      simp only [List.length_append, List.length_singleton]
      omega
    exact ⟨_, dif_pos room⟩

/-! ### Runs -/

inductive Command (Action : Type) where
  | common (command : Container.Command Action)
  | pushAnyTime (pushed : Obligation Action)
  | release

def Command.pushed : Command Action → List (Obligation Action)
  | .common command => command.pushed
  | .pushAnyTime pushed => [pushed]
  | .release => []

section Commands

variable [DecidableEq Action]

def apply : Command Action → Queue Action → Except (Stop Action) (Queue Action)
  | .common command, queue => Container.apply command queue
  | .pushAnyTime pushed, queue => Stop.ofFault (queue.pushAnyTime pushed)
  | .release, queue => .ok queue.release

theorem Valid.decided (valid : queue.Valid) :
    Container.Decided queue (fun action => queue.Accepts action) queue.Skippable where
  canPerform action := canPerform_answers action valid
  possibleActions := possibleActions_lists valid
  perform action := (perform_cases action valid).imp_left
    fun ⟨accepts, _, _, _, _, _, performed⟩ => ⟨accepts, _, performed⟩
  canSkip := canSkip_answers valid
  skip := by
    rcases skip_cases valid with
      ⟨skippable, ⟨_, _, _, _, skipped⟩ | ⟨_, skipped⟩⟩ | ⟨kept, refusal, refused⟩
    · exact .inl ⟨skippable, _, skipped⟩
    · exact .inl ⟨skippable, _, skipped⟩
    · exact .inr ⟨kept, refusal, refused⟩

theorem Valid.unbroken (valid : queue.Valid) : Container.Unbroken queue :=
  valid.decided.unbroken (skipAll_faultless valid)

omit [DecidableEq Action] in
theorem ofFault_eq_ok {α : Type} {result : Except Fault α} {value : α}
    (lifted : (Stop.ofFault result : Except (Stop Action) α) = .ok value) : result = .ok value := by
  cases result with
  | ok _ => exact congrArg Except.ok (Except.ok.inj lifted)
  | error fault => cases lifted

theorem apply_valid {command : Command Action} {next : Queue Action}
    (pushedValid : ∀ tree ∈ command.pushed, tree.Valid) (valid : queue.Valid)
    (applied : apply command queue = .ok next) :
    next.Valid ∧ next.length ≤ queue.length + command.pushed.length := by
  match command with
  | .common (.push pushed) => exact push_valid valid pushedValid (ofFault_eq_ok applied)
  | .common (.perform action) => exact perform_valid valid applied
  | .common .skip => exact ⟨(skip_shrinks valid applied).1, skip_length_le valid applied⟩
  | .common .skipAll =>
      have drained := skipUntilEmpty_preserves
        (fun _ _ holds skipped => (skip_shrinks holds skipped).1) valid applied
      have none : next.length = 0 := beq_iff_eq.mp drained.2
      exact ⟨drained.1, by omega⟩
  | .common .clear =>
      cases applied
      exact ⟨empty_valid, Nat.zero_le _⟩
  | .pushAnyTime pushed =>
      exact pushAnyTime_valid valid (pushedValid pushed (by simp [Command.pushed]))
        (ofFault_eq_ok applied)
  | .release =>
      cases applied
      exact ⟨release_valid valid, Nat.le_refl _⟩

theorem apply_faultless {command : Command Action} (valid : queue.Valid)
    (fits : queue.length + command.pushed.length ≤ Obligation.capacity) :
    Faultless (apply command queue) := by
  match command with
  | .common (.push pushed) =>
      obtain ⟨next, pushed⟩ := push_goes_through valid fits
      exact faultless_of_ok (congrArg Stop.ofFault pushed)
  | .common (.perform action) => exact valid.unbroken.perform action
  | .common .skip => exact skip_faultless valid
  | .common .skipAll => exact skipAll_faultless valid
  | .common .clear => exact faultless_of_ok rfl
  | .pushAnyTime pushed =>
      obtain ⟨next, pushed⟩ := pushAnyTime_goes_through fits
      exact faultless_of_ok (congrArg Stop.ofFault pushed)
  | .release => exact faultless_of_ok rfl

theorem attemptAll_valid {commands : List (Command Action)} {reached : Queue Action}
    (pushedValid : ∀ command ∈ commands, ∀ tree ∈ command.pushed, tree.Valid)
    (valid : queue.Valid) (ran : attemptAll apply commands queue = .ok reached) : reached.Valid := by
  have preserves : ∀ command ∈ commands, ∀ before next : Queue Action, before.Valid →
      apply command before = .ok next → next.Valid :=
    fun command member _ _ valid applied =>
      (apply_valid (pushedValid command member) valid applied).1
  exact attemptAll_preserves preserves valid ran

def pushedInAll : List (Command Action) → Nat
  | [] => 0
  | command :: rest => command.pushed.length + pushedInAll rest

theorem attemptAll_goes_through {commands : List (Command Action)}
    (pushedValid : ∀ command ∈ commands, ∀ tree ∈ command.pushed, tree.Valid)
    (valid : queue.Valid) (fits : queue.length + pushedInAll commands ≤ Obligation.capacity) :
    ∃ reached, attemptAll apply commands queue = .ok reached := by
  induction commands generalizing queue with
  | nil => exact ⟨queue, rfl⟩
  | cons command rest ih =>
      rw [pushedInAll] at fits
      have unbroken : Faultless (apply command queue) := apply_faultless valid (by omega)
      obtain ⟨next, attempted⟩ := attempt_of_faultless unbroken
      have step : next.Valid ∧ next.length ≤ queue.length + command.pushed.length := by
        rcases attempt_cases attempted with applied | rfl
        · exact apply_valid (pushedValid command (by simp)) valid applied
        · exact ⟨valid, by omega⟩
      rw [attemptAll, attempted, ok_bind]
      exact ih (fun other member => pushedValid other (by simp [member])) step.1 (by omega)

end Commands

end TurnObligations.Queue
