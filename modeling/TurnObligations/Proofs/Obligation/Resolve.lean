import TurnObligations.Obligation.Resolve
import TurnObligations.Proofs.Obligation.Accept

/-!
What one command does to a tree. `Resolves` has one rule for every way in which an action is taken
up; on valid trees `perform` follows a rule or refuses, and no rule leaves the valid trees.
-/

namespace TurnObligations.Obligation

variable {Action : Type}

def afterBranch (before : List (Obligation Action)) (next : Obligation Action)
    (after : List (Obligation Action)) : Obligation Action :=
  if next.isFinal then .any (before ++ after) none
  else .any (before ++ next :: after) (some (UInt64.ofNat before.length))

/-- One action is taken up: by the part in progress, or by the first part that accepts it. -/
inductive Resolves (action : Action) : Obligation Action → Obligation Action → Prop
  | single {mandatory} :
      Resolves action (.single action mandatory false) (.single action mandatory true)
  | choice {before branch after chosen} (passed : ∀ earlier ∈ before, ¬earlier.Accepts action)
      (part : Resolves action branch chosen) :
      Resolves action (.choice (before ++ branch :: after)) (.choice (stillOpen chosen).toList)
  | anyFresh {before branch after next} (passed : ∀ earlier ∈ before, ¬earlier.Accepts action)
      (part : Resolves action branch next) :
      Resolves action (.any (before ++ branch :: after) none) (afterBranch before next after)
  | anyCurrent {before branch after next index} (here : index.toNat = before.length)
      (part : Resolves action branch next) :
      Resolves action (.any (before ++ branch :: after) (some index))
        (afterBranch before next after)
  | iteration {atLeast atMost template current next count counted}
      (part : Resolves action current next)
      (counts : counted.toNat = count.toNat + if next.isFinal then 1 else 0) :
      Resolves action (.repeated atLeast atMost template (some current) count)
        (.repeated atLeast atMost template (stillOpen next) counted)
  | template {atLeast atMost template next count counted} (room : count < atMost)
      (part : Resolves action template next)
      (counts : counted.toNat = count.toNat + if next.isFinal then 1 else 0) :
      Resolves action (.repeated atLeast atMost template none count)
        (.repeated atLeast atMost template (stillOpen next) counted)
  | occurrence {trigger consequence atLeast atMost whens thens current next}
      (part : Resolves action current next) :
      Resolves action (.whenThen trigger consequence atLeast atMost whens thens (some current))
        (.whenThen trigger consequence atLeast atMost whens thens (stillOpen next))
  | consequence {trigger consequence atLeast atMost whens thens next started}
      (owed : thens < whens) (part : Resolves action consequence next)
      (counts : started.toNat = thens.toNat + 1) :
      Resolves action (.whenThen trigger consequence atLeast atMost whens thens none)
        (.whenThen trigger consequence atLeast atMost whens started (stillOpen next))
  | trigger {trigger consequence atLeast atMost whens thens next started}
      (passed : ¬(thens < whens ∧ consequence.Accepts action)) (room : whens < atMost)
      (part : Resolves action trigger next) (counts : started.toNat = whens.toNat + 1) :
      Resolves action (.whenThen trigger consequence atLeast atMost whens thens none)
        (.whenThen trigger consequence atLeast atMost started thens (stillOpen next))

theorem Resolves.accepts {action : Action} {tree next : Obligation Action}
    (resolves : tree.Resolves action next) : tree.Accepts action := by
  induction resolves with
  | single => exact .single
  | choice _ _ ih => exact .choice (by simp) ih
  | anyFresh _ _ ih => exact .anyFresh (by simp) ih
  | anyCurrent here _ ih => exact .anyCurrent (by simp [here]) ih
  | iteration _ _ ih => exact .iteration ih
  | template room _ _ ih => exact .template room ih
  | occurrence _ ih => exact .occurrence ih
  | consequence owed _ _ ih => exact .consequence owed ih
  | trigger _ room _ _ ih => exact .trigger room ih

/-! ### `perform` follows the rules -/

theorem exists_split_at {α : Type} {items : List α} {index : Nat}
    (bound : index < items.length) :
    ∃ before item after, items = before ++ item :: after ∧ index = before.length :=
  ⟨items.take index, items[index], items.drop (index + 1), by simp, by simp; omega⟩

def Follows (action : Action) (tree : Obligation Action)
    (result : Except (Stop Action) (Obligation Action)) : Prop :=
  (∃ next, result = .ok next ∧ tree.Resolves action next) ∨
    (¬tree.Accepts action ∧ result = refusePerform action)

section Perform

variable [DecidableEq Action] {action : Action}

theorem firstAccepting_cases {branches : List (Obligation Action)}
    (each : ∀ branch ∈ branches, Answers (branch.canPerform action) (branch.Accepts action)) :
    (∃ before branch after, branches = before ++ branch :: after ∧
      (∀ earlier ∈ before, ¬earlier.Accepts action) ∧ branch.Accepts action ∧
      firstAccepting action branches = .ok (some before.length)) ∨
    ((∀ branch ∈ branches, ¬branch.Accepts action) ∧
      firstAccepting action branches = .ok none) := by
  induction branches with
  | nil => exact .inr ⟨by simp, rfl⟩
  | cons first rest ih =>
      rcases (each first (by simp)).cases with ⟨accepts, found⟩ | ⟨refuses, found⟩
      · refine .inl ⟨[], first, rest, rfl, by simp, accepts, ?_⟩
        rw [firstAccepting, found]
        rfl
      · rcases ih fun other member => each other (by simp [member]) with
          ⟨before, branch, after, rfl, passed, accepts, later⟩ | ⟨none, later⟩
        · refine .inl ⟨first :: before, branch, after, rfl, ?_, accepts, ?_⟩
          · simpa [refuses] using passed
          · rw [firstAccepting, found, later]
            rfl
        · refine .inr ⟨by simpa [refuses] using none, ?_⟩
          rw [firstAccepting, found, later]
          rfl

theorem add32_one {count bound : UInt32} (below : count < bound) :
    ∃ next, Counter.add32 count 1 = .ok next ∧ next.toNat = count.toNat + 1 := by
  have fits : count.toNat + (1 : UInt32).toNat < UInt32.size :=
    Nat.lt_of_le_of_lt (UInt32.lt_iff_toNat_lt.mp below) bound.toNat_lt
  exact ⟨count + 1, if_pos fits, Counter.toNat_of_add32 (if_pos fits)⟩

theorem toNat_ofNat_of_le {number : Nat} {bound : UInt32} (fits : number ≤ bound.toNat) :
    (UInt32.ofNat number).toNat = number :=
  UInt32.toNat_ofNat_of_lt' (Nat.lt_of_le_of_lt fits bound.toNat_lt)

theorem add32_ofNat {number : Nat} {bound : UInt32} (room : number < bound.toNat) :
    Counter.add32 (UInt32.ofNat number) 1 = .ok (UInt32.ofNat (number + 1)) := by
  have place : (UInt32.ofNat number).toNat = number := toNat_ofNat_of_le (Nat.le_of_lt room)
  obtain ⟨next, added, counts⟩ := add32_one (UInt32.lt_iff_toNat_lt.mpr (place.symm ▸ room))
  have same : next = UInt32.ofNat (number + 1) := by
    rw [← UInt32.toNat_inj, counts, place, toNat_ofNat_of_le room]
  rw [added, same]

omit [DecidableEq Action] in
theorem Follows.taken {tree : Obligation Action}
    {result : Except (Stop Action) (Obligation Action)} (follows : Follows action tree result)
    (accepts : tree.Accepts action) : ∃ next, result = .ok next ∧ tree.Resolves action next :=
  follows.resolve_right fun refused => refused.1 accepts

theorem performAt_here (before after : List (Obligation Action)) (branch : Obligation Action) :
    performAt action (before ++ branch :: after) before.length = some (branch.perform action) := by
  simp [performAt_eq]

-- The proofs below all open `perform`; its equations are made once, before any of them asks.
attribute [local simp] perform

structure PartsFollow (action : Action) (parts : List (Obligation Action)) : Prop where
  answers : ∀ part ∈ parts, Answers (part.canPerform action) (part.Accepts action)
  follows : ∀ part ∈ parts, Follows action part (part.perform action)

theorem perform_choice_follows {branches : List (Obligation Action)}
    (parts : PartsFollow action branches) :
    Follows action (choice branches) ((choice branches).perform action) := by
  rcases firstAccepting_cases parts.answers with
    ⟨before, branch, after, rfl, passed, accepts, found⟩ | ⟨none, found⟩
  · obtain ⟨chosen, performed, part⟩ := (parts.follows branch (by simp)).taken accepts
    refine .inl ⟨_, ?_, .choice passed part⟩
    simp only [perform, found, lift_ok, ok_bind, performAt_here, performed, Option.getD_some]
    rfl
  · refine .inr ⟨by simpa [accepts_choice] using none, ?_⟩
    rw [perform, found]
    rfl

omit [DecidableEq Action] in
theorem afterBranch_eq (before after : List (Obligation Action)) (branch next : Obligation Action) :
    (if next.isFinal then any ((before ++ branch :: after).eraseIdx before.length) none
      else any ((before ++ branch :: after).set before.length next)
        (some (UInt64.ofNat before.length))) = afterBranch before next after := by
  simp [afterBranch, List.eraseIdx_append_of_length_le]

theorem perform_anyFresh_follows {branches : List (Obligation Action)}
    (parts : PartsFollow action branches) :
    Follows action (any branches none) ((any branches none).perform action) := by
  rcases firstAccepting_cases parts.answers with
    ⟨before, branch, after, rfl, passed, accepts, found⟩ | ⟨none, found⟩
  · obtain ⟨next, performed, part⟩ := (parts.follows branch (by simp)).taken accepts
    refine .inl ⟨_, ?_, .anyFresh passed part⟩
    simp only [perform, found, lift_ok, ok_bind, performAt_here, performed, Option.getD_some]
    exact congrArg Except.ok (afterBranch_eq before after branch next)
  · refine .inr ⟨by simpa [accepts_anyFresh] using none, ?_⟩
    rw [perform, found]
    rfl

theorem perform_anyCurrent_follows {branches : List (Obligation Action)} {index : UInt64}
    (inRange : index.toNat < branches.length) (parts : PartsFollow action branches) :
    Follows action (any branches (some index)) ((any branches (some index)).perform action) := by
  obtain ⟨before, branch, after, rfl, here⟩ := exists_split_at inRange
  have found : (before ++ branch :: after)[index.toNat]? = some branch := by simp [here]
  rcases parts.follows branch (by simp) with ⟨next, performed, part⟩ | ⟨refuses, refused⟩
  · refine .inl ⟨_, ?_, .anyCurrent here part⟩
    simp only [perform, here, pure_bind, performAt_here, performed, Option.getD_some, ok_bind]
    exact congrArg Except.ok (afterBranch_eq before after branch next)
  · refine .inr ⟨by simpa [accepts_anyCurrent found] using refuses, ?_⟩
    simp only [perform, here, pure_bind, performAt_here, refused, Option.getD_some]
    rfl

omit [DecidableEq Action] in
theorem afterIteration_eq {count atMost : UInt32} (room : count < atMost) (atLeast : UInt32)
    (template next : Obligation Action) :
    ∃ counted, counted.toNat = count.toNat + (if next.isFinal then 1 else 0) ∧
      (if next.isFinal then do
        return repeated atLeast atMost template none (← Counter.add32 count 1)
      else return repeated atLeast atMost template (some next) count :
        Except (Stop Action) (Obligation Action)) =
      .ok (repeated atLeast atMost template (stillOpen next) counted) := by
  cases final : next.isFinal with
  | false => exact ⟨count, rfl, by simp [stillOpen, final]; rfl⟩
  | true =>
      obtain ⟨counted, added, counts⟩ := add32_one room
      refine ⟨counted, by simpa using counts, ?_⟩
      simp only [added, lift_ok, ok_bind, stillOpen, final, if_true]
      rfl

theorem perform_iteration_follows {atLeast atMost count : UInt32}
    {template current : Obligation Action} (room : count < atMost)
    (part : Follows action current (current.perform action)) :
    Follows action (repeated atLeast atMost template (some current) count)
      ((repeated atLeast atMost template (some current) count).perform action) := by
  rcases part with ⟨next, performed, part⟩ | ⟨refuses, refused⟩
  · obtain ⟨counted, counts, closed⟩ := afterIteration_eq room atLeast template next
    refine .inl ⟨_, ?_, .iteration part counts⟩
    rw [perform, performed]
    exact closed
  · refine .inr ⟨by simpa [accepts_iteration] using refuses, ?_⟩
    rw [perform, refused]
    rfl

theorem perform_template_follows {atLeast atMost count : UInt32} {template : Obligation Action}
    (part : Follows action template (template.perform action)) :
    Follows action (repeated atLeast atMost template none count)
      ((repeated atLeast atMost template none count).perform action) := by
  by_cases full : atMost ≤ count
  · refine .inr ⟨by simp [accepts_template, UInt32.not_lt.mpr full], ?_⟩
    rw [perform, if_pos full]
  · have room : count < atMost := UInt32.not_le.mp full
    rcases part with ⟨next, performed, part⟩ | ⟨refuses, refused⟩
    · obtain ⟨counted, counts, closed⟩ := afterIteration_eq room atLeast template next
      refine .inl ⟨_, ?_, .template room part counts⟩
      rw [perform, if_neg full, performed]
      exact closed
    · refine .inr ⟨by simp [accepts_template, refuses], ?_⟩
      rw [perform, if_neg full, refused]
      rfl

theorem perform_occurrence_follows {trigger consequence current : Obligation Action}
    {atLeast atMost whens thens : UInt32}
    (part : Follows action current (current.perform action)) :
    Follows action (whenThen trigger consequence atLeast atMost whens thens (some current))
      ((whenThen trigger consequence atLeast atMost whens thens (some current)).perform action) := by
  rcases part with ⟨next, performed, part⟩ | ⟨refuses, refused⟩
  · refine .inl ⟨_, ?_, .occurrence part⟩
    rw [perform, performed]
    rfl
  · refine .inr ⟨by simpa [accepts_occurrence] using refuses, ?_⟩
    rw [perform, refused]
    rfl

theorem perform_whenThen (trigger consequence : Obligation Action)
    (atLeast atMost whens thens : UInt32) :
    perform action (whenThen trigger consequence atLeast atMost whens thens none) = (do
      let owed ← liftM (if thens < whens then consequence.canPerform action else .ok false)
      if owed then
        let next ← consequence.perform action
        return whenThen trigger consequence atLeast atMost whens (← Counter.add32 thens 1)
          (stillOpen next)
      let offered ← liftM (if whens < atMost then trigger.canPerform action else .ok false)
      if offered then
        let next ← trigger.perform action
        return whenThen trigger consequence atLeast atMost (← Counter.add32 whens 1) thens
          (stillOpen next)
      refusePerform action) := by
  rw [perform]
  split <;> split <;> rfl

theorem perform_whenThen_follows {trigger consequence : Obligation Action}
    {atLeast atMost whens thens : UInt32} (parts : PartsFollow action [trigger, consequence]) :
    Follows action (whenThen trigger consequence atLeast atMost whens thens none)
      ((whenThen trigger consequence atLeast atMost whens thens none).perform action) := by
  have owedAnswers : Answers (if thens < whens then consequence.canPerform action else .ok false)
      (thens < whens ∧ consequence.Accepts action) := (parts.answers _ (by simp)).onlyIf
  have offeredAnswers : Answers (if whens < atMost then trigger.canPerform action else .ok false)
      (whens < atMost ∧ trigger.Accepts action) := (parts.answers _ (by simp)).onlyIf
  rw [perform_whenThen]
  rcases owedAnswers.cases with ⟨⟨owed, accepts⟩, asked⟩ | ⟨notOwed, asked⟩
  · obtain ⟨next, performed, part⟩ := (parts.follows _ (by simp)).taken accepts
    obtain ⟨started, added, counts⟩ := add32_one owed
    refine .inl ⟨_, ?_, .consequence owed part counts⟩
    simp only [asked, lift_ok, ok_bind, if_true, performed, added]
    rfl
  · rcases offeredAnswers.cases with ⟨⟨room, accepts⟩, asked'⟩ | ⟨notOffered, asked'⟩
    · obtain ⟨next, performed, part⟩ := (parts.follows _ (by simp)).taken accepts
      obtain ⟨started, added, counts⟩ := add32_one room
      refine .inl ⟨_, ?_, .trigger notOwed room part counts⟩
      simp only [asked, asked', lift_ok, ok_bind, if_true, performed, added]
      rfl
    · refine .inr ⟨by simp [accepts_whenThen, notOwed, notOffered], ?_⟩
      simp only [asked, asked', lift_ok, ok_bind]
      rfl

theorem perform_follows (action : Action) {tree : Obligation Action} (valid : tree.Valid) :
    Follows action tree (tree.perform action) := by
  induction tree using childInduction with
  | node tree ih =>
      have parts (some : List (Obligation Action)) (among : ∀ part ∈ some, part ∈ tree.children)
          (each : ∀ part ∈ some, part.Valid) : PartsFollow action some :=
        ⟨fun part member => canPerform_answers action (each part member),
          fun part member => ih part (among part member) (each part member)⟩
      cases tree with
      | single own mandatory completed =>
          rw [perform]
          cases completed with
          | true => exact .inr ⟨by simp [accepts_single], rfl⟩
          | false =>
              by_cases same : action = own
              · subst same
                exact .inl ⟨_, by simp, .single⟩
              · exact .inr ⟨by simp [accepts_single, same], by simp [same]⟩
      | choice branches =>
          simp only [valid_choice] at valid
          exact perform_choice_follows
            (parts branches (by simp [children]) fun part member => (valid part member).2)
      | any branches current =>
          simp only [valid_any] at valid
          have branchesFollow :=
            parts branches (by simp [children]) fun part member => (valid.1 part member).2
          cases current with
          | none => exact perform_anyFresh_follows branchesFollow
          | some index => exact perform_anyCurrent_follows (valid.2 index rfl) branchesFollow
      | repeated atLeast atMost template current count =>
          simp only [valid_repeated] at valid
          cases current with
          | none => exact perform_template_follows (ih template (by simp [children]) valid.2.1)
          | some current =>
              obtain ⟨_, room, currentValid⟩ := valid.2.2 current rfl
              exact perform_iteration_follows (UInt32.lt_iff_toNat_lt.mpr room)
                (ih current (by simp [children]) currentValid)
      | whenThen trigger consequence atLeast atMost whens thens current =>
          simp only [valid_whenThen] at valid
          cases current with
          | none =>
              exact perform_whenThen_follows (parts _ (by simp [children]) (by simp [valid]))
          | some current =>
              exact perform_occurrence_follows
                (ih current (by simp [children]) (valid.2.2.2 current rfl).2)

end Perform

/-! ### No rule leaves the valid trees -/

theorem stillOpen_eq_some {next part : Obligation Action} :
    stillOpen next = some part ↔ next.isFinal = false ∧ next = part := by
  cases final : next.isFinal <;> simp [stillOpen, final]

theorem mem_children_afterBranch {before after : List (Obligation Action)}
    {next part : Obligation Action} (member : part ∈ (afterBranch before next after).children) :
    part ∈ before ∨ part = next ∨ part ∈ after := by
  rw [afterBranch] at member
  split at member
  · exact (List.mem_append.mp member).imp_right .inr
  · simpa [children] using member

theorem Resolves.mem_children {action : Action} {tree next part : Obligation Action}
    (resolves : tree.Resolves action next) (member : part ∈ next.children) :
    part ∈ tree.children ∨ ∃ child ∈ tree.children, child.Resolves action part := by
  cases resolves with
  | single => cases member
  | choice _ taken =>
      obtain ⟨_, rfl⟩ := stillOpen_eq_some.mp (Option.mem_toList.mp member)
      exact .inr ⟨_, by simp [children], taken⟩
  | anyFresh _ taken =>
      rcases mem_children_afterBranch member with earlier | rfl | later
      · exact .inl (by simp [children, earlier])
      · exact .inr ⟨_, by simp [children], taken⟩
      · exact .inl (by simp [children, later])
  | anyCurrent _ taken =>
      rcases mem_children_afterBranch member with earlier | rfl | later
      · exact .inl (by simp [children, earlier])
      · exact .inr ⟨_, by simp [children], taken⟩
      · exact .inl (by simp [children, later])
  | iteration taken | template _ taken =>
      simp only [children, List.mem_cons, Option.mem_toList, stillOpen_eq_some] at member
      rcases member with rfl | ⟨_, rfl⟩
      · exact .inl (by simp [children])
      · exact .inr ⟨_, by simp [children], taken⟩
  | occurrence taken | consequence _ taken | trigger _ _ taken =>
      simp only [children, List.mem_cons, Option.mem_toList, stillOpen_eq_some] at member
      rcases member with rfl | rfl | ⟨_, rfl⟩
      · exact .inl (by simp [children])
      · exact .inl (by simp [children])
      · exact .inr ⟨_, by simp [children], taken⟩

/-- What every node satisfies outlives a move if it does so at each node by itself. -/
theorem Resolves.everywhere {action : Action} {holds : Obligation Action → Prop}
    (moves : ∀ node next : Obligation Action, node.Resolves action next → holds node → holds next)
    {tree next : Obligation Action} (resolves : tree.Resolves action next)
    (every : tree.Everywhere holds) : next.Everywhere holds := by
  induction every generalizing next with
  | node here below ih =>
      refine .node (moves _ _ resolves here) fun part member => ?_
      rcases resolves.mem_children member with kept | ⟨child, among, taken⟩
      · exact below part kept
      · exact ih child among taken

theorem sound_afterBranch {before after : List (Obligation Action)} {branch next : Obligation Action}
    (all : ∀ other ∈ before ++ branch :: after, other.isFinal = false) :
    (afterBranch before next after).Sound := by
  have earlier (other) (member : other ∈ before) := all other (by simp [member])
  have later (other) (member : other ∈ after) := all other (by simp [member])
  rw [afterBranch]
  cases final : next.isFinal with
  | true =>
      simp only [if_true, sound_any, List.mem_append]
      exact ⟨fun other member => member.elim (earlier other) (later other), by simp⟩
  | false =>
      simp only [Bool.false_eq_true, if_false, sound_any, List.mem_append, List.mem_cons]
      refine ⟨?_, ?_⟩
      · rintro other (member | rfl | member)
        · exact earlier other member
        · exact final
        · exact later other member
      · intro index same
        simp only [Option.mem_def, Option.some.injEq] at same
        subst same
        have wraps := Nat.mod_le before.length UInt64.size
        simp only [UInt64.toNat_ofNat', List.length_append, List.length_cons]
        omega

theorem Resolves.sound {action : Action} {node next : Obligation Action}
    (resolves : node.Resolves action next) (sound : node.Sound) : next.Sound := by
  cases resolves with
  | single => rfl
  | choice =>
      rw [sound_choice]
      intro part kept
      obtain ⟨unresolved, rfl⟩ := stillOpen_eq_some.mp (Option.mem_toList.mp kept)
      exact unresolved
  | anyFresh => exact sound_afterBranch (sound_any.mp sound).1
  | anyCurrent => exact sound_afterBranch (sound_any.mp sound).1
  | iteration _ counts =>
      simp only [sound_repeated, Option.mem_def, stillOpen_eq_some] at sound ⊢
      obtain ⟨bounds, unfinished⟩ := sound
      obtain ⟨_, room⟩ := unfinished _ rfl
      refine ⟨⟨bounds.1, by split at counts <;> omega⟩, ?_⟩
      rintro part ⟨final, rfl⟩
      exact ⟨final, by simpa [counts, final] using room⟩
  | template room _ counts =>
      simp only [sound_repeated, Option.mem_def, stillOpen_eq_some] at sound ⊢
      have room := UInt32.lt_iff_toNat_lt.mp room
      refine ⟨⟨sound.1.1, by split at counts <;> omega⟩, ?_⟩
      rintro part ⟨final, rfl⟩
      exact ⟨final, by simpa [counts, final] using room⟩
  | occurrence =>
      simp only [sound_whenThen, Option.mem_def, stillOpen_eq_some] at sound ⊢
      exact ⟨sound.1, fun part kept => kept.2 ▸ kept.1⟩
  | consequence owed _ counts =>
      simp only [sound_whenThen, Option.mem_def, stillOpen_eq_some] at sound ⊢
      have owed := UInt32.lt_iff_toNat_lt.mp owed
      exact ⟨by omega, fun part kept => kept.2 ▸ kept.1⟩
  | trigger _ room _ counts =>
      simp only [sound_whenThen, Option.mem_def, stillOpen_eq_some] at sound ⊢
      have room := UInt32.lt_iff_toNat_lt.mp room
      exact ⟨by omega, fun part kept => kept.2 ▸ kept.1⟩

theorem Resolves.valid {action : Action} {tree next : Obligation Action}
    (resolves : tree.Resolves action next) (valid : tree.Valid) : next.Valid :=
  resolves.everywhere (fun _ _ => Resolves.sound) valid

end TurnObligations.Obligation
