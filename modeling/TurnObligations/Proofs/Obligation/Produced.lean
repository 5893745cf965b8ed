import TurnObligations.Proofs.Obligation.Built
import TurnObligations.Proofs.Obligation.Storage
import TurnObligations.Scripted.Game

/-!
Which of the trees that building and playing can produce are accepted back from storage: those in
which no choice holds a branch that is final. Everything else that validation asks is kept by every
builder and every command, whatever they are given.
-/

namespace TurnObligations.Obligation

variable {Action : Type}

/-- Trees that the builders and the accepted commands make, also of one another. -/
inductive Produced [DecidableEq Action] : Obligation Action → Prop
  | mandatory (action : Action) : Produced (mandatory action)
  | optional (action : Action) : Produced (optional action)
  | optionalOf {part tree} (given : Produced part) (made : buildOptionalOf part = .ok tree) :
      Produced tree
  | any {branches tree} (given : ∀ branch ∈ branches, Produced branch)
      (made : buildAny branches = .ok tree) : Produced tree
  | anyOfActions {actions tree} (made : buildAnyOfActions actions = .ok tree) : Produced tree
  | choice {branches tree} (given : ∀ branch ∈ branches, Produced branch)
      (made : buildChoice branches = .ok tree) : Produced tree
  | choiceOfActions {actions tree} (made : buildChoiceOfActions actions = .ok tree) : Produced tree
  | repeated {atLeast atMost template tree} (given : Produced template)
      (made : buildRepeat atLeast atMost template = .ok tree) : Produced tree
  | repeatAction {atLeast atMost action tree}
      (made : buildRepeatAction atLeast atMost action = .ok tree) : Produced tree
  | whenThen {trigger consequence atLeast atMost tree} (first : Produced trigger)
      (second : Produced consequence)
      (made : buildWhenThen trigger consequence atLeast atMost = .ok tree) : Produced tree
  | whenThenActions {trigger consequence atLeast atMost tree}
      (made : buildWhenThenActions trigger consequence atLeast atMost = .ok tree) : Produced tree
  | played {command tree next} (given : Produced tree) (applied : apply command tree = .ok next) :
      Produced next

/-! ### Sound but for the choices -/

/-- A choice offers no branch that is final already. -/
def OffersOpen : Obligation Action → Prop
  | .choice branches => ∀ branch ∈ branches, branch.isFinal = false
  | _ => True

def SoundButChoice : Obligation Action → Prop
  | .choice _ => True
  | node => node.Sound

def Sturdy (tree : Obligation Action) : Prop := tree.Everywhere SoundButChoice

theorem sound_iff (node : Obligation Action) :
    node.Sound ↔ node.SoundButChoice ∧ node.OffersOpen := by
  cases node with
  | choice branches => simp [sound_choice, SoundButChoice, OffersOpen]
  | _ => simp [SoundButChoice, OffersOpen]

theorem valid_iff_sturdy (tree : Obligation Action) :
    tree.Valid ↔ tree.Sturdy ∧ tree.Everywhere OffersOpen := by
  constructor
  · intro valid
    constructor
    · exact valid.imp fun node every => ((sound_iff node).mp (everywhere_iff.mp every).1).1
    · exact valid.imp fun node every => ((sound_iff node).mp (everywhere_iff.mp every).1).2
  · rintro ⟨sturdy, offers⟩
    induction sturdy with
    | node here _ ih =>
        have both := everywhere_iff.mp offers
        exact .node ((sound_iff _).mpr ⟨here, both.1⟩) fun child below =>
          ih child below (both.2 child below)

@[simp] theorem sturdy_single (action : Action) (mandatory completed : Bool) :
    (single action mandatory completed).Sturdy :=
  .node rfl (by simp [children])

@[simp] theorem sturdy_choice {branches : List (Obligation Action)} :
    (choice branches).Sturdy ↔ ∀ branch ∈ branches, branch.Sturdy := by
  rw [Sturdy, everywhere_iff]
  simp [SoundButChoice, children, Sturdy]

@[simp] theorem sturdy_any {branches : List (Obligation Action)} {current : Option UInt64} :
    (any branches current).Sturdy ↔
      (∀ branch ∈ branches, branch.isFinal = false ∧ branch.Sturdy) ∧
        ∀ index ∈ current, index.toNat < branches.length := by
  rw [Sturdy, everywhere_iff]
  simp only [SoundButChoice, sound_any, children, Sturdy, forall_and, and_right_comm]

@[simp] theorem sturdy_repeated {atLeast atMost count : UInt32} {template : Obligation Action}
    {current : Option (Obligation Action)} :
    (repeated atLeast atMost template current count).Sturdy ↔
      (atLeast.toNat ≤ atMost.toNat ∧ count.toNat ≤ atMost.toNat) ∧ template.Sturdy ∧
        ∀ part ∈ current, part.isFinal = false ∧ count.toNat < atMost.toNat ∧ part.Sturdy := by
  rw [Sturdy, everywhere_iff]
  cases current <;> simp [SoundButChoice, sound_repeated, children, Sturdy, and_assoc, and_left_comm]

@[simp] theorem sturdy_whenThen {trigger consequence : Obligation Action}
    {atLeast atMost whens thens : UInt32} {current : Option (Obligation Action)} :
    (whenThen trigger consequence atLeast atMost whens thens current).Sturdy ↔
      (thens.toNat ≤ whens.toNat ∧ whens.toNat ≤ atMost.toNat ∧ atLeast.toNat ≤ atMost.toNat) ∧
        trigger.Sturdy ∧ consequence.Sturdy ∧
          ∀ part ∈ current, part.isFinal = false ∧ part.Sturdy := by
  rw [Sturdy, everywhere_iff]
  cases current <;> simp [SoundButChoice, sound_whenThen, children, Sturdy, and_assoc, and_left_comm]

/-! ### Builders -/

theorem sturdy_of_buildAny {branches : List (Obligation Action)} {tree : Obligation Action}
    (given : ∀ branch ∈ branches, branch.Sturdy) (made : buildAny branches = .ok tree) :
    tree.Sturdy := by
  rw [buildAny_eq_ok made, freshAny, sturdy_any]
  refine ⟨?_, by simp⟩
  intro branch member
  obtain ⟨offered, unresolved⟩ := List.mem_filter.mp member
  exact ⟨by simpa using unresolved, given branch offered⟩

theorem sturdy_of_buildChoice {branches : List (Obligation Action)} {tree : Obligation Action}
    (given : ∀ branch ∈ branches, branch.Sturdy) (made : buildChoice branches = .ok tree) :
    tree.Sturdy := by
  rw [buildChoice_eq_ok made, sturdy_choice]
  exact given

theorem sturdy_of_buildRepeat {atLeast atMost : UInt32} {template tree : Obligation Action}
    (given : template.Sturdy) (made : buildRepeat atLeast atMost template = .ok tree) :
    tree.Sturdy := by
  obtain ⟨rfl, bounds, _⟩ := buildRepeat_eq_ok made
  have bounds := UInt32.le_iff_toNat_le.mp bounds
  simp [freshRepeat, bounds, given]

theorem sturdy_of_buildWhenThen {trigger consequence tree : Obligation Action}
    {atLeast atMost : UInt32} (first : trigger.Sturdy) (second : consequence.Sturdy)
    (made : buildWhenThen trigger consequence atLeast atMost = .ok tree) : tree.Sturdy := by
  obtain ⟨rfl, bounds, _⟩ := buildWhenThen_eq_ok made
  have bounds := UInt32.le_iff_toNat_le.mp bounds
  simp [freshWhenThen, bounds, first, second]

/-! ### Commands -/

theorem stillOpen_sturdy {next part : Obligation Action} (sturdy : next.Sturdy)
    (kept : stillOpen next = some part) : part.isFinal = false ∧ part.Sturdy := by
  obtain ⟨unresolved, rfl⟩ := stillOpen_eq_some.mp kept
  exact ⟨unresolved, sturdy⟩

theorem soundButChoice_afterSkip {node : Obligation Action} (sound : node.SoundButChoice)
    (permitted : node.checkSkip = .ok ()) : node.afterSkip.SoundButChoice := by
  cases node with
  | choice branches =>
      rcases checkSkip_choice_eq_ok permitted with rfl | ⟨only, rfl, _⟩
      · trivial
      · trivial
  | any branches current => cases current <;> exact sound_afterSkip sound permitted
  | _ => exact sound_afterSkip sound permitted

theorem afterSkip_sturdy {tree : Obligation Action} (sturdy : tree.Sturdy)
    (permitted : tree.checkSkip = .ok ()) : tree.afterSkip.Sturdy :=
  everywhere_afterSkip (fun _ => soundButChoice_afterSkip) sturdy permitted

section Commands

variable [DecidableEq Action] {action : Action}

theorem performAt_eq_ok {branches : List (Obligation Action)} {index : Nat} {stop : Stop Action}
    {next : Obligation Action}
    (performed : (performAt action branches index).getD (.error stop) = .ok next) :
    ∃ branch, branches[index]? = some branch ∧ branch.perform action = .ok next := by
  rw [performAt_eq] at performed
  cases here : branches[index]? with
  | none => simp [here] at performed
  | some branch => exact ⟨branch, rfl, by simpa [here] using performed⟩

theorem perform_choice_sturdy {branches : List (Obligation Action)} {next : Obligation Action}
    (each : ∀ branch ∈ branches, ∀ next, branch.perform action = .ok next → next.Sturdy)
    (performed : (choice branches).perform action = .ok next) : next.Sturdy := by
  rw [perform] at performed
  obtain ⟨found, _, performed⟩ := bind_eq_ok.mp performed
  cases found with
  | none => cases performed
  | some index =>
      obtain ⟨chosen, taken, left⟩ := bind_eq_ok.mp performed
      cases left
      obtain ⟨branch, here, taken⟩ := performAt_eq_ok taken
      have chosenSturdy := each branch (List.mem_of_getElem? here) chosen taken
      simp only [sturdy_choice, Option.mem_toList]
      exact fun part kept => (stillOpen_sturdy chosenSturdy kept).2

theorem perform_any_eq_ok {branches : List (Obligation Action)} {current : Option UInt64}
    {next : Obligation Action} (performed : (any branches current).perform action = .ok next) :
    ∃ index branch left, branches[index]? = some branch ∧ branch.perform action = .ok left ∧
      next = if left.isFinal then .any (branches.eraseIdx index) none
        else .any (branches.set index left) (some (UInt64.ofNat index)) := by
  cases current with
  | none =>
      rw [perform] at performed
      obtain ⟨found, _, performed⟩ := bind_eq_ok.mp performed
      cases found with
      | none => cases performed
      | some index =>
          obtain ⟨left, taken, result⟩ := bind_eq_ok.mp performed
          obtain ⟨branch, here, taken⟩ := performAt_eq_ok taken
          exact ⟨index, branch, left, here, taken, (Except.ok.inj result).symm⟩
  | some index =>
      rw [perform, pure_bind] at performed
      obtain ⟨left, taken, result⟩ := bind_eq_ok.mp performed
      obtain ⟨branch, here, taken⟩ := performAt_eq_ok taken
      exact ⟨index.toNat, branch, left, here, taken, (Except.ok.inj result).symm⟩

theorem perform_any_sturdy {branches : List (Obligation Action)} {current : Option UInt64}
    {next : Obligation Action} (sturdy : (any branches current).Sturdy)
    (each : ∀ branch ∈ branches, ∀ next, branch.perform action = .ok next → next.Sturdy)
    (performed : (any branches current).perform action = .ok next) : next.Sturdy := by
  simp only [sturdy_any] at sturdy
  obtain ⟨index, branch, left, here, taken, rfl⟩ := perform_any_eq_ok performed
  have leftSturdy := each branch (List.mem_of_getElem? here) left taken
  split
  · simp only [sturdy_any]
    exact ⟨fun other member => sturdy.1 other (List.mem_of_mem_eraseIdx member), by simp⟩
  · next unresolved =>
      simp only [sturdy_any]
      constructor
      · intro other member
        rcases List.mem_or_eq_of_mem_set member with old | rfl
        · exact sturdy.1 other old
        · exact ⟨by simpa using unresolved, leftSturdy⟩
      · intro place same
        cases same
        have inRange := (List.getElem?_eq_some_iff.mp here).1
        have wraps := Nat.mod_le index UInt64.size
        simp only [UInt64.toNat_ofNat', List.length_set]
        omega

omit [DecidableEq Action] in
theorem afterIteration_sturdy {atLeast atMost count : UInt32} {template left next : Obligation Action}
    (bound : atLeast.toNat ≤ atMost.toNat) (room : count < atMost) (templateSturdy : template.Sturdy)
    (leftSturdy : left.Sturdy)
    (performed : (if left.isFinal then do
        return repeated atLeast atMost template none (← Counter.add32 count 1)
      else return repeated atLeast atMost template (some left) count :
        Except (Stop Action) (Obligation Action)) = .ok next) : next.Sturdy := by
  obtain ⟨counted, counts, closed⟩ := afterIteration_eq room atLeast template left
  cases closed.symm.trans performed
  have room := UInt32.lt_iff_toNat_lt.mp room
  simp only [sturdy_repeated, Option.mem_def]
  refine ⟨⟨bound, by split at counts <;> omega⟩, templateSturdy, ?_⟩
  intro part kept
  obtain ⟨unresolved, rfl⟩ := stillOpen_eq_some.mp kept
  simp only [unresolved, Bool.false_eq_true, if_false] at counts
  exact ⟨unresolved, by omega, leftSturdy⟩

theorem perform_repeated_sturdy {atLeast atMost count : UInt32} {template next : Obligation Action}
    {current : Option (Obligation Action)}
    (sturdy : (repeated atLeast atMost template current count).Sturdy)
    (each : ∀ part ∈ template :: current.toList, ∀ next, part.perform action = .ok next → next.Sturdy)
    (performed : (repeated atLeast atMost template current count).perform action = .ok next) :
    next.Sturdy := by
  simp only [sturdy_repeated] at sturdy
  obtain ⟨bounds, templateSturdy, currentSturdy⟩ := sturdy
  cases current with
  | none =>
      rw [perform] at performed
      split at performed
      · cases performed
      · next open' =>
          obtain ⟨left, taken, counted⟩ := bind_eq_ok.mp performed
          exact afterIteration_sturdy bounds.1 (UInt32.not_le.mp open') templateSturdy
            (each template (by simp) left taken) counted
  | some current =>
      rw [perform] at performed
      obtain ⟨left, taken, counted⟩ := bind_eq_ok.mp performed
      have room := UInt32.lt_iff_toNat_lt.mpr (currentSturdy current rfl).2.1
      exact afterIteration_sturdy bounds.1 room templateSturdy (each current (by simp) left taken)
        counted

theorem perform_whenThen_sturdy {trigger consequence next : Obligation Action}
    {atLeast atMost whens thens : UInt32} {current : Option (Obligation Action)}
    (sturdy : (whenThen trigger consequence atLeast atMost whens thens current).Sturdy)
    (each : ∀ part ∈ trigger :: consequence :: current.toList,
      ∀ next, part.perform action = .ok next → next.Sturdy)
    (performed : (whenThen trigger consequence atLeast atMost whens thens current).perform action =
      .ok next) : next.Sturdy := by
  simp only [sturdy_whenThen] at sturdy
  obtain ⟨counters, triggerSturdy, consequenceSturdy, _⟩ := sturdy
  cases current with
  | some current =>
      rw [perform] at performed
      obtain ⟨left, taken, result⟩ := bind_eq_ok.mp performed
      cases result
      simp only [sturdy_whenThen, Option.mem_def]
      exact ⟨counters, triggerSturdy, consequenceSturdy,
        fun part kept => stillOpen_sturdy (each current (by simp) left taken) kept⟩
  | none =>
      rw [perform_whenThen] at performed
      obtain ⟨owed, asked, performed⟩ := bind_eq_ok.mp performed
      have asked := eq_ok_of_lift asked
      cases owed with
      | true =>
          obtain ⟨left, taken, performed⟩ := bind_eq_ok.mp performed
          obtain ⟨started, added, result⟩ := bind_eq_ok.mp performed
          cases result
          have counts := Counter.toNat_of_add32 (eq_ok_of_lift added)
          have below := UInt32.lt_iff_toNat_lt.mp (of_onlyIf_eq_true asked)
          have one : (1 : UInt32).toNat = 1 := rfl
          simp only [sturdy_whenThen, Option.mem_def]
          exact ⟨by omega, triggerSturdy, consequenceSturdy,
            fun part kept => stillOpen_sturdy (each consequence (by simp) left taken) kept⟩
      | false =>
          obtain ⟨offered, asked', performed⟩ := bind_eq_ok.mp performed
          have asked' := eq_ok_of_lift asked'
          cases offered with
          | false => cases performed
          | true =>
              obtain ⟨left, taken, performed⟩ := bind_eq_ok.mp performed
              obtain ⟨started, added, result⟩ := bind_eq_ok.mp performed
              cases result
              have counts := Counter.toNat_of_add32 (eq_ok_of_lift added)
              have below := UInt32.lt_iff_toNat_lt.mp (of_onlyIf_eq_true asked')
              have one : (1 : UInt32).toNat = 1 := rfl
              simp only [sturdy_whenThen, Option.mem_def]
              exact ⟨by omega, triggerSturdy, consequenceSturdy,
                fun part kept => stillOpen_sturdy (each trigger (by simp) left taken) kept⟩

theorem perform_sturdy {tree next : Obligation Action} (sturdy : tree.Sturdy)
    (performed : tree.perform action = .ok next) : next.Sturdy := by
  induction tree using childInduction generalizing next with
  | node tree ih =>
      have each : ∀ part ∈ tree.children, ∀ next, part.perform action = .ok next → next.Sturdy :=
        fun part below _ taken => ih part below ((everywhere_iff.mp sturdy).2 part below) taken
      cases tree with
      | single own mandatory completed =>
          rw [perform] at performed
          split at performed
          · cases performed
            simp
          · cases performed
      | choice branches => exact perform_choice_sturdy each performed
      | any branches current => exact perform_any_sturdy sturdy each performed
      | repeated => exact perform_repeated_sturdy sturdy each performed
      | whenThen => exact perform_whenThen_sturdy sturdy each performed

theorem Produced.sturdy {tree : Obligation Action} (produced : tree.Produced) : tree.Sturdy := by
  induction produced with
  | mandatory => exact sturdy_single ..
  | optional => exact sturdy_single ..
  | optionalOf _ made ih => exact sturdy_of_buildAny (by simpa using ih) made
  | any _ made ih => exact sturdy_of_buildAny ih made
  | anyOfActions made => exact sturdy_of_buildAny (by simp [Obligation.mandatory]) made
  | choice _ made ih => exact sturdy_of_buildChoice ih made
  | choiceOfActions made => exact sturdy_of_buildChoice (by simp [Obligation.optional]) made
  | repeated _ made ih => exact sturdy_of_buildRepeat ih made
  | repeatAction made => exact sturdy_of_buildRepeat (sturdy_single ..) made
  | whenThen _ _ made first second => exact sturdy_of_buildWhenThen first second made
  | whenThenActions made =>
      exact sturdy_of_buildWhenThen (sturdy_single ..) (sturdy_single ..) made
  | @played command _ _ _ applied ih =>
      cases command with
      | perform action => exact perform_sturdy ih applied
      | skip =>
          obtain ⟨permitted, rfl⟩ := skip_eq_ok_iff.mp applied
          exact afterSkip_sturdy ih permitted

end Commands

/-! ### What the decoder accepts -/

variable [DecidableEq Action]

theorem applyAll_valid {commands : List (Command Action)} {tree reached : Obligation Action}
    (valid : tree.Valid) (ran : applyAll apply commands tree = .ok reached) : reached.Valid :=
  applyAll_preserves (fun _ _ _ _ => apply_valid) valid ran

/-- Of everything that building and playing can produce, exactly the trees in which no choice holds a
final branch pass validation and come back from JSON; and whatever play reaches from one of these
does so too. -/
theorem produced_accepted_iff [NamedAction Action] {tree : Obligation Action}
    (produced : tree.Produced) :
    (tree.validate = .ok () ↔ tree.Everywhere OffersOpen) ∧
    (Saved.ofJson? (Storage.toJson tree) = .ok tree ↔ tree.Everywhere OffersOpen) ∧
    (tree.Everywhere OffersOpen → ∀ commands reached, applyAll apply commands tree = .ok reached →
      reached.validate = .ok () ∧ Saved.ofJson? (Storage.toJson reached) = .ok reached) := by
  have accepted (tree : Obligation Action) :
      Saved.ofJson? (Storage.toJson tree) = .ok tree ↔ tree.Valid :=
    (Saved.ofJson?_gated tree).accepted.trans tree.validate_eq_ok_iff
  have exact : tree.Valid ↔ tree.Everywhere OffersOpen := by
    rw [valid_iff_sturdy]
    exact and_iff_right produced.sturdy
  refine ⟨tree.validate_eq_ok_iff.trans exact, (accepted tree).trans exact, ?_⟩
  intro offers commands reached ran
  have valid := applyAll_valid (exact.mpr offers) ran
  exact ⟨reached.validate_eq_ok_iff.mpr valid, (accepted reached).mpr valid⟩

theorem produced_accepted_iff_begun :
    let begun : Obligation Scripted.Action := .repeated 0 2 (.mandatory .a) none 1
    let tree : Obligation Scripted.Action := .choice [begun, .optional .b]
    let done : Obligation Scripted.Action := .choice []
    tree.Produced ∧ tree.Everywhere OffersOpen ∧ Saved.ofJson? (Storage.toJson tree) = .ok tree ∧
      applyAll apply [.perform .a, .skip] tree = .ok done ∧
      Saved.ofJson? (Storage.toJson done) = .ok done := by
  intro begun tree done
  have made : buildRepeat 0 2 (.mandatory Scripted.Action.a) =
      .ok (freshRepeat 0 2 (.mandatory .a)) := rfl
  have played : apply (.perform .a) (freshRepeat 0 2 (.mandatory Scripted.Action.a)) = .ok begun :=
    rfl
  have chosen : buildChoice [begun, .optional .b] = .ok tree := rfl
  have produced : tree.Produced := by
    refine .choice ?_ chosen
    exact List.forall_mem_cons.mpr
      ⟨.played (.repeated (.mandatory .a) made) played,
        List.forall_mem_cons.mpr ⟨.optional Scripted.Action.b, nofun⟩⟩
  have offers : tree.Everywhere OffersOpen := (produced_accepted_iff produced).1.mp rfl
  have ran : applyAll apply [.perform .a, .skip] tree = .ok done := rfl
  exact ⟨produced, offers, (produced_accepted_iff produced).2.1.mpr offers, ran,
    ((produced_accepted_iff produced).2.2 offers _ _ ran).2⟩

/-- A `repeat` of nothing is final as soon as it is made, a choice takes it up all the same, and what
comes of it can be saved but not loaded. -/
theorem choice_of_final_branch_rejected :
    let nothing : Obligation Scripted.Action := freshRepeat 0 0 (.mandatory .a)
    let tree : Obligation Scripted.Action := .choice [nothing, .mandatory .b]
    buildRepeatAction 0 0 .a = .ok nothing ∧ buildChoice [nothing, .mandatory .b] = .ok tree ∧
      tree.Produced ∧ tree.validate = .error .choiceResolved ∧
      (Saved.ofJson? (Storage.toJson tree) : Except StorageError (Obligation Scripted.Action)) =
        .error (.corrupt .choiceResolved) := by
  intro nothing tree
  have made : buildRepeatAction 0 0 .a = .ok nothing := rfl
  have chosen : buildChoice [nothing, .mandatory .b] = .ok tree := rfl
  have rejected : tree.validate = .error .choiceResolved := rfl
  refine ⟨made, chosen, ?_, rejected, (Saved.ofJson?_gated tree).rejected _ rejected⟩
  refine .choice ?_ chosen
  exact List.forall_mem_cons.mpr
    ⟨.repeatAction made, List.forall_mem_cons.mpr ⟨.mandatory Scripted.Action.b, nofun⟩⟩

end TurnObligations.Obligation
