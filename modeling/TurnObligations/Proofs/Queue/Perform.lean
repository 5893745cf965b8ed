import TurnObligations.Proofs.Queue.Valid

/-!
Where a move lands in a queue. The queries and `perform` look for it separately and agree.
-/

namespace TurnObligations.Queue

variable {Action : Type} {queue : Queue Action}

/-- The obligations that a move may land on: the one in progress, or the pool and the front. -/
def focus (queue : Queue Action) : List (Obligation Action) :=
  match queue.current? with
  | some tree => [tree]
  | none => queue.anyTime ++ queue.order.head?.toList

def Accepts (action : Action) (queue : Queue Action) : Prop :=
  ∃ tree ∈ queue.focus, tree.Accepts action

theorem focus_of_current {slot : QueueSlot} {tree : Obligation Action}
    (current : queue.current = some slot) (here : queue.get? slot = some tree) :
    queue.focus = [tree] := by
  simp [focus, current?, current, here]

theorem focus_of_released (released : queue.current = none) :
    queue.focus = queue.anyTime ++ queue.order.head?.toList := by
  simp [focus, current?, released]

theorem mem_trees_of_mem_focus {tree : Obligation Action} (member : tree ∈ queue.focus) :
    tree ∈ queue.trees := by
  rw [focus] at member
  split at member
  · next found =>
      obtain ⟨slot, _, here⟩ := Option.bind_eq_some_iff.mp found
      rw [List.mem_singleton.mp member]
      exact mem_trees_of_get? here
  · rcases List.mem_append.mp member with pooled | front
    · exact List.mem_append_left _ pooled
    · exact List.mem_append_right _ (List.mem_of_head? (Option.mem_toList.mp front))

section Queries

variable [DecidableEq Action]

theorem canPerform_answers (action : Action) (valid : queue.Valid) :
    Answers (queue.canPerform action) (queue.Accepts action) := by
  have asked (tree) (member : tree ∈ queue.focus) :=
    Obligation.canPerform_answers action (valid.trees tree (mem_trees_of_mem_focus member))
  cases current : queue.current with
  | some slot =>
      obtain ⟨tree, here, _⟩ := valid.slot slot current
      have focused := focus_of_current current here
      simp only [canPerform, current, here, Accepts, focused]
      exact (asked tree (by simp [focused])).congr (by simp)
  | none =>
      have focused := focus_of_released current
      rw [focused] at asked
      have pooled : Answers (Obligation.anyCanPerform action queue.anyTime)
          (∃ tree ∈ queue.anyTime, tree.Accepts action) :=
        Obligation.anyCanPerform_answers fun tree member => asked tree (by simp [member])
      cases order : queue.order with
      | nil =>
          simp only [canPerform, current, order, Accepts, focused]
          exact (pooled.orElse (Answers.decided false)).congr (by simp)
      | cons front rest =>
          simp only [canPerform, current, order, Accepts, focused]
          exact (pooled.orElse (asked front (by simp [order]))).congr (by simp [or_and_right, exists_or])

omit [DecidableEq Action] in
theorem possibleActions_lists (valid : queue.Valid) :
    Lists queue.possibleActions fun action => queue.Accepts action := by
  have listed (tree) (member : tree ∈ queue.focus) :=
    Obligation.possibleActions_lists (valid.trees tree (mem_trees_of_mem_focus member))
  rw [possibleActions]
  split
  · next tree found =>
      have focused : queue.focus = [tree] := by rw [focus, found]
      simp only [Accepts, focused]
      exact (listed tree (by simp [focused])).congr (by simp)
  · next found =>
      have focused : queue.focus = queue.anyTime ++ queue.order.head?.toList := by rw [focus, found]
      rw [← focused]
      exact Obligation.allPossible_lists listed

end Queries

section Perform

variable [DecidableEq Action] {action : Action}

def target (action : Action) (queue : Queue Action) : Except Fault (Option QueueSlot) :=
  match queue.current with
  | some slot => .ok (some slot)
  | none => queue.locate action

theorem perform_eq (queue : Queue Action) :
    queue.perform action = (do
      match (← queue.target action).bind fun slot => (queue.get? slot).map (slot, ·) with
      | none => .error (.refused .nothingAvailable)
      | some (slot, tree) =>
          if ← tree.canPerform action then return queue.settle slot (← tree.perform action)
          else .error (.refused .nothingAvailable)) := by
  rw [perform, target]
  cases queue.current <;> rfl

theorem perform_at {slot : QueueSlot} {tree : Obligation Action}
    (found : queue.target action = .ok (some slot)) (here : queue.get? slot = some tree) :
    queue.perform action = (do
      if ← tree.canPerform action then return queue.settle slot (← tree.perform action)
      else .error (.refused .nothingAvailable)) := by
  rw [perform_eq, found, lift_ok, ok_bind, Option.bind_some, here, Option.map_some]

theorem perform_eq_ok {next : Queue Action} (performed : queue.perform action = .ok next) :
    ∃ slot tree left, queue.target action = .ok (some slot) ∧ queue.get? slot = some tree ∧
      tree.perform action = .ok left ∧ queue.settle slot left = next := by
  rw [perform_eq] at performed
  obtain ⟨found, located, performed⟩ := bind_eq_ok.mp performed
  have located := eq_ok_of_lift located
  split at performed
  · cases performed
  · next slot tree aimed =>
      obtain ⟨slot', rfl, held⟩ := Option.bind_eq_some_iff.mp aimed
      obtain ⟨tree', here, same⟩ := Option.map_eq_some_iff.mp held
      cases same
      obtain ⟨accepted, _, performed⟩ := bind_eq_ok.mp performed
      split at performed
      · obtain ⟨left, done, settled⟩ := bind_eq_ok.mp performed
        exact ⟨slot, tree, left, located, here, done, Except.ok.inj settled⟩
      · cases performed

theorem target_eq_some {slot : QueueSlot} (found : queue.target action = .ok (some slot)) :
    queue.current = some slot ∨
      (queue.current = none ∧ ((∃ index, slot = .anyTime index) ∨ slot = .queue 0)) := by
  rw [target] at found
  split at found
  · next current =>
      cases found
      exact .inl current
  · next current =>
      refine .inr ⟨current, ?_⟩
      obtain ⟨first, _, located⟩ := bind_eq_ok.mp found
      cases first with
      | some index =>
          cases located
          exact .inl ⟨_, rfl⟩
      | none =>
          have front : queue.front? = some slot := Except.ok.inj located
          rw [front?] at front
          split at front
          · cases front
          · exact .inr (Option.some.inj front).symm

theorem target_cases (action : Action) (valid : queue.Valid) :
    (∃ slot tree, queue.target action = .ok (some slot) ∧ queue.get? slot = some tree ∧
      (tree.Accepts action ↔ queue.Accepts action)) ∨
    (queue.target action = .ok none ∧ ¬queue.Accepts action) := by
  cases current : queue.current with
  | some slot =>
      obtain ⟨tree, here, _⟩ := valid.slot slot current
      refine .inl ⟨slot, tree, by rw [target, current], here, ?_⟩
      simp [Accepts, focus_of_current current here]
  | none =>
      have focused := focus_of_released current
      have found : queue.target action = queue.locate action := by rw [target, current]
      rw [found, locate]
      have asked (tree) (member : tree ∈ queue.anyTime) :=
        Obligation.canPerform_answers action (valid.trees tree (List.mem_append_left _ member))
      rcases Obligation.firstAccepting_cases asked with
        ⟨before, tree, after, shape, _, accepts, first⟩ | ⟨none, first⟩
      · have fits : before.length < UInt64.size := by
          have room := queue.room
          rw [shape] at room
          simp only [List.length_append, List.length_cons, Obligation.capacity] at room
          omega
        have place : (UInt64.ofNat before.length).toNat = before.length :=
          UInt64.toNat_ofNat_of_lt fits
        refine .inl ⟨.anyTime (UInt64.ofNat before.length), tree, by rw [first]; rfl, ?_, ?_⟩
        · rw [get?, place, shape]
          simp
        · have member : tree ∈ queue.focus := by simp [focused, shape]
          exact ⟨fun lands => ⟨tree, member, lands⟩, fun _ => accepts⟩
      · rw [first, ok_bind]
        cases order : queue.order with
        | nil =>
            refine .inr ⟨by simp [front?, order, pure, Except.pure], ?_⟩
            simpa [Accepts, focused, order] using none
        | cons front rest =>
            refine .inl ⟨.queue 0, front, by simp [front?, order, pure, Except.pure],
              by simp [get?, order], ?_⟩
            constructor
            · exact fun lands => ⟨front, by simp [focused, order], lands⟩
            · rintro ⟨tree, member, lands⟩
              simp only [focused, order, List.head?_cons, Option.toList_some, List.mem_append,
                List.mem_singleton] at member
              rcases member with pooled | rfl
              · exact absurd lands (none tree pooled)
              · exact lands

theorem perform_cases (action : Action) (valid : queue.Valid) :
    (queue.Accepts action ∧ ∃ slot tree next, queue.get? slot = some tree ∧
      tree.Resolves action next ∧ queue.perform action = .ok (queue.settle slot next)) ∨
    (¬queue.Accepts action ∧ queue.perform action = .error (.refused .nothingAvailable)) := by
  rw [perform_eq]
  rcases target_cases action valid with ⟨slot, tree, found, here, same⟩ | ⟨found, refuses⟩
  · have treeValid := valid.at here
    rcases (Obligation.canPerform_answers action treeValid).cases with
      ⟨accepts, asked⟩ | ⟨refuses, asked⟩
    · obtain ⟨next, performed, resolves⟩ :=
        (Obligation.perform_follows action treeValid).taken accepts
      refine .inl ⟨same.mp accepts, slot, tree, next, here, resolves, ?_⟩
      simp only [found, lift_ok, ok_bind, Option.bind_some, here, Option.map_some, asked, performed]
      rfl
    · refine .inr ⟨fun accepts => refuses (same.mpr accepts), ?_⟩
      simp only [found, lift_ok, ok_bind, Option.bind_some, here, Option.map_some, asked]
      rfl
  · refine .inr ⟨refuses, ?_⟩
    rw [found]
    rfl

theorem perform_valid {next : Queue Action} (valid : queue.Valid)
    (performed : queue.perform action = .ok next) :
    next.Valid ∧ next.length ≤ queue.length := by
  rcases perform_cases action valid with ⟨_, slot, tree, left, here, resolves, result⟩ | ⟨_, refused⟩
  · rw [performed, Except.ok.injEq] at result
    subst result
    exact ⟨settle_valid valid here (resolves.valid (valid.at here)), settle_length_le here left⟩
  · rw [performed] at refused
    cases refused

end Perform

end TurnObligations.Queue
