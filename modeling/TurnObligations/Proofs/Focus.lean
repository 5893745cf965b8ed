import TurnObligations.Proofs.Deadlock
import TurnObligations.Proofs.Lockstep

/-!
What stands behind the front of a stack, or behind the front of a queue with its pool, is neither read nor
written until the front is gone.
-/

namespace TurnObligations

variable {Action : Type}

namespace Container

variable {C : Type} [Container C Action]

structure AnswersAlike (one other : C) : Prop where
  canSkip : ∃ permitted, Container.canSkip one = .ok permitted ∧
    Container.canSkip other = .ok permitted
  canPerform : ∀ action, ∃ accepted, Container.canPerform action one = .ok accepted ∧
    Container.canPerform action other = .ok accepted
  possibleActions : ∃ offered, Container.possibleActions one = .ok offered ∧
    Container.possibleActions other = .ok offered

section Runs

variable (behind : List (Obligation Action) → C → C) (stands : C → Prop)
  (one other : List (Obligation Action))

/-- Two containers have the same in focus, with `one` behind it in the first and `other` in the second,
and are called alike. Until the front is gone they answer alike whatever is asked or called, and calls
leave the same in focus and what is behind as it was. -/
inductive RunsAlike : C → List (Obligation.Command Action) → Prop
  | gone {focus : C} {commands : List (Obligation.Command Action)} (left : ¬stands focus) :
      RunsAlike focus commands
  | over {focus : C} (asked : AnswersAlike (behind one focus) (behind other focus)) :
      RunsAlike focus []
  | refused {focus : C} {command : Obligation.Command Action}
      {commands : List (Obligation.Command Action)} {refusal : Refusal Action}
      (asked : AnswersAlike (behind one focus) (behind other focus))
      (first : play command (behind one focus) = .error (.refused refusal))
      (second : play command (behind other focus) = .error (.refused refusal))
      (onward : RunsAlike focus commands) : RunsAlike focus (command :: commands)
  | happened {focus next : C} {command : Obligation.Command Action}
      {commands : List (Obligation.Command Action)}
      (asked : AnswersAlike (behind one focus) (behind other focus))
      (first : play command (behind one focus) = .ok (behind one next))
      (second : play command (behind other focus) = .ok (behind other next))
      (onward : RunsAlike next commands) : RunsAlike focus (command :: commands)

end Runs

variable {behind : List (Obligation Action) → C → C} {fits : List (Obligation Action) → Prop}

/-- The focus alone settles what is answered and what a call does, whichever list is behind it. -/
structure Framed (behind : List (Obligation Action) → C → C)
    (fits : List (Obligation Action) → Prop) (holds : C → Prop) (focus : C) : Prop where
  canSkip : ∃ permitted, ∀ tail, fits tail → Container.canSkip (behind tail focus) = .ok permitted
  canPerform : ∀ action, ∃ accepted, ∀ tail, fits tail →
    Container.canPerform action (behind tail focus) = .ok accepted
  possibleActions : ∃ offered, ∀ tail, fits tail →
    Container.possibleActions (behind tail focus) = .ok offered
  play : ∀ command, ∃ answer, Faultless answer ∧ (∀ next, answer = .ok next → holds next) ∧
    ∀ tail, fits tail → play command (behind tail focus) = answer.map (behind tail)

theorem Framed.answersAlike {holds : C → Prop} {focus : C} {one other : List (Obligation Action)}
    (framed : Framed behind fits holds focus) (fitsOne : fits one) (fitsOther : fits other) :
    AnswersAlike (behind one focus) (behind other focus) where
  canSkip := framed.canSkip.imp fun _ told => ⟨told one fitsOne, told other fitsOther⟩
  canPerform action :=
    (framed.canPerform action).imp fun _ told => ⟨told one fitsOne, told other fitsOther⟩
  possibleActions := framed.possibleActions.imp fun _ told => ⟨told one fitsOne, told other fitsOther⟩

theorem RunsAlike.of_framed {stands holds : C → Prop}
    (framed : ∀ focus, holds focus → stands focus → Framed behind fits holds focus)
    {one other : List (Obligation Action)} (fitsOne : fits one) (fitsOther : fits other)
    (commands : List (Obligation.Command Action)) {focus : C} (held : holds focus) :
    RunsAlike behind stands one other focus commands := by
  induction commands generalizing focus with
  | nil =>
      by_cases standing : stands focus
      · exact .over ((framed focus held standing).answersAlike fitsOne fitsOther)
      · exact .gone standing
  | cons command rest ih =>
      by_cases standing : stands focus
      · have here := framed focus held standing
        have asked := here.answersAlike fitsOne fitsOther
        obtain ⟨answer, faultless, keeps, told⟩ := here.play command
        have first := told one fitsOne
        have second := told other fitsOther
        cases answer with
        | ok next => exact .happened asked first second (ih (keeps next rfl))
        | error stop =>
            cases stop with
            | refused refusal => exact .refused asked first second (ih held)
            | faulted fault => exact absurd rfl (faultless fault)
      · exact .gone standing

end Container

open Container (Framed RunsAlike)

/-! ### The obligation that a call lands on -/

section Respond

variable [DecidableEq Action]

namespace Obligation

def respond (tree : Obligation Action) : Command Action → Except (Stop Action) (Obligation Action)
  | .perform action => do
      if ← tree.canPerform action then tree.perform action else .error (.refused .nothingAvailable)
  | .skip => tree.skip

theorem respond_cases {tree : Obligation Action} (valid : tree.Valid) (command : Command Action) :
    (∃ next, tree.respond command = .ok next ∧ next.Valid) ∨
      ∃ refusal, tree.respond command = .error (.refused refusal) := by
  have applied : tree.respond command = apply command tree ∨
      tree.respond command = .error (.refused .nothingAvailable) := by
    cases command with
    | perform action =>
        rcases (canPerform_answers action valid).cases with ⟨_, asked⟩ | ⟨_, asked⟩
        · exact .inl (by simp only [respond, asked, lift_ok, ok_bind, if_true]; rfl)
        · exact .inr (by simp only [respond, asked, lift_ok, ok_bind]; rfl)
    | skip => exact .inl rfl
  rcases applied with applied | refused
  · cases outcome : apply command tree with
    | ok next => exact .inl ⟨next, applied.trans outcome, apply_valid valid outcome⟩
    | error stop =>
        cases stop with
        | refused refusal => exact .inr ⟨refusal, applied.trans outcome⟩
        | faulted fault => exact absurd outcome (apply_faultless command valid fault)
  · exact .inr ⟨_, refused⟩

end Obligation

theorem Container.framed_play {C : Type} [Container C Action]
    {behind : List (Obligation Action) → C → C} {fits : List (Obligation Action) → Prop}
    {holds : C → Prop} {focus : C} {command : Obligation.Command Action} {tree : Obligation Action}
    {settle : Obligation Action → C} (valid : tree.Valid)
    (settles : ∀ next : Obligation Action, next.Valid → holds (settle next))
    (lands : ∀ tail, fits tail → Container.play command (behind tail focus) =
      (tree.respond command).map fun next => behind tail (settle next)) :
    ∃ answer, Faultless answer ∧ (∀ next, answer = .ok next → holds next) ∧
      ∀ tail, fits tail → Container.play command (behind tail focus) = answer.map (behind tail) := by
  rcases tree.respond_cases valid command with ⟨next, responded, nextValid⟩ | ⟨refusal, responded⟩
  · refine ⟨.ok (settle next), faultless_of_ok rfl, ?_, fun tail fit => ?_⟩
    · rintro _ ⟨⟩
      exact settles next nextValid
    · rw [lands tail fit, responded]
      rfl
  · refine ⟨.error (.refused refusal), faultless_of_refused rfl, nofun, fun tail fit => ?_⟩
    rw [lands tail fit, responded]
    rfl

end Respond

/-! ### Stacks -/

namespace Stack

def behind (tail : List (Obligation Action)) (stack : Stack Action) : Stack Action :=
  ⟨stack.obligations ++ tail⟩

theorem settle_behind (next : Obligation Action) (tail : List (Obligation Action)) :
    settle next tail = (settle next []).behind tail := by
  rw [settle, settle, behind]
  cases next.isFinal <;> rfl

structure Fronted (stack : Stack Action) : Prop where
  valid : stack.Valid
  alone : stack.obligations = [] ∨ ∃ front, stack.obligations = [front]

theorem settle_fronted {next : Obligation Action} (nextValid : next.Valid) :
    (settle next []).Fronted := by
  refine ⟨settle_valid nextValid (by simp), ?_⟩
  rw [settle]
  cases next.isFinal with
  | true => exact .inl rfl
  | false => exact .inr ⟨next, rfl⟩

section Calls

variable [DecidableEq Action]

theorem play_cons (front : Obligation Action) (tail : List (Obligation Action))
    (command : Obligation.Command Action) :
    Container.play command (⟨front :: tail⟩ : Stack Action) =
      (front.respond command).map fun next => settle next tail := by
  cases command with
  | perform action =>
      show perform action ⟨front :: tail⟩ = _
      simp only [perform, Obligation.respond]
      cases front.canPerform action with
      | error fault => rfl
      | ok accepted =>
          cases accepted with
          | false => rfl
          | true =>
              show (front.perform action >>= fun next => pure (settle next tail)) = _
              cases front.perform action <;> rfl
  | skip => exact skip_cons front tail

theorem Fronted.framed {focus : Stack Action} (held : focus.Fronted)
    (standing : focus.obligations ≠ []) : Framed behind (fun _ => True) Fronted focus := by
  obtain ⟨front, shape⟩ := held.alone.resolve_left standing
  have valid := held.valid.front shape
  obtain ⟨obligations⟩ := focus
  cases shape
  refine ⟨?_, fun action => ?_, ?_, fun command => ?_⟩
  · exact valid.unbroken.canSkip.imp fun _ asked _ _ => asked
  · exact (valid.unbroken.canPerform action).imp fun _ asked _ _ => asked
  · exact valid.unbroken.possibleActions.imp fun _ asked _ _ => asked
  · refine Container.framed_play valid (fun _ => settle_fronted) fun tail _ => ?_
    rw [behind, List.singleton_append, play_cons]
    simp only [settle_behind _ tail]

end Calls

end Stack

/-! ### Queues -/

namespace Queue

def behind (tail : List (Obligation Action)) (queue : Queue Action) : Queue Action :=
  { queue with order := queue.order ++ tail }

variable {queue : Queue Action} {front : Obligation Action} {tail : List (Obligation Action)}
  {slot : QueueSlot}

def Near (slot : QueueSlot) : Prop := ∀ index, slot = .queue index → index = 0

theorem near_anyTime (index : UInt64) : Near (.anyTime index) := nofun

theorem near_front : Near (.queue 0) := fun _ same => (QueueSlot.queue.inj same).symm

theorem get?_behind (order : queue.order = [front]) (near : Near slot) :
    (queue.behind tail).get? slot = queue.get? slot := by
  cases slot with
  | anyTime index => rfl
  | queue index =>
      cases near index rfl
      simp [get?, behind, order]

theorem settle_behind (order : queue.order = [front]) (near : Near slot)
    (next : Obligation Action) :
    (queue.behind tail).settle slot next = (queue.settle slot next).behind tail := by
  cases slot with
  | anyTime index =>
      simp only [settle]
      cases next.isFinal <;> rfl
  | queue index =>
      cases near index rfl
      simp only [settle]
      cases next.isFinal <;> simp [behind, order]

theorem dropIdle_behind (queue : Queue Action) (some : tail ≠ []) :
    (queue.behind tail).dropIdle = queue.behind tail := by
  rw [dropIdle, if_neg]
  simp [behind, some]

theorem skipTarget_behind (order : queue.order = [front]) :
    (queue.behind tail).skipTarget = some (queue.current.getD (.queue 0)) := by
  simp only [skipTarget, front?, behind, order]
  cases queue.current <;> rfl

theorem possibleActions_behind (order : queue.order = [front])
    (slot : ∀ slot ∈ queue.current, Near slot) :
    (queue.behind tail).possibleActions = queue.possibleActions := by
  have same : (queue.behind tail).current? = queue.current? :=
    Option.bind_congr fun slot' current => get?_behind order (slot slot' current)
  rw [possibleActions, possibleActions, same]
  simp only [behind, order, List.singleton_append, List.head?_cons]

structure Fronted (queue : Queue Action) : Prop where
  trees : ∀ tree ∈ queue.trees, tree.Valid
  alone : queue.order = [] ∨ ∃ front, queue.order = [front]
  slot : ∀ slot ∈ queue.current, Near slot

theorem Fronted.at {tree : Obligation Action} (held : queue.Fronted)
    (here : queue.get? slot = some tree) : tree.Valid :=
  held.trees tree (mem_trees_of_get? here)

theorem Fronted.valid (held : queue.Fronted) (released : queue.current = none) : queue.Valid :=
  ⟨held.trees, by simp [released]⟩

theorem settle_order (order : queue.order = [front]) (near : Near slot)
    (next : Obligation Action) :
    (queue.settle slot next).order = [] ∨ ∃ front, (queue.settle slot next).order = [front] := by
  cases slot with
  | anyTime index =>
      simp only [settle]
      cases next.isFinal <;> exact .inr ⟨front, order⟩
  | queue index =>
      cases near index rfl
      simp only [settle]
      cases next.isFinal with
      | true => exact .inl (by simp [order])
      | false => exact .inr ⟨next, by simp [order]⟩

theorem settle_near (near : Near slot) (next : Obligation Action) :
    ∀ slot' ∈ (queue.settle slot next).current, Near slot' := by
  cases slot <;> simp only [settle] <;> cases next.isFinal <;> simp [near]

theorem Fronted.settle {tree next : Obligation Action} (held : queue.Fronted)
    (order : queue.order = [front]) (near : Near slot) (here : queue.get? slot = some tree)
    (nextValid : next.Valid) : (queue.settle slot next).Fronted :=
  ⟨settle_forall here held.trees nextValid, settle_order order near next, settle_near near next⟩

def afterCall : Obligation.Command Action → Queue Action → Queue Action
  | .perform _, queue => queue
  | .skip, queue => queue.release

theorem Fronted.afterCall (held : queue.Fronted) (command : Obligation.Command Action) :
    (queue.afterCall command).Fronted := by
  cases command with
  | perform action => exact held
  | skip => exact ⟨held.trees, held.alone, by simp [Queue.afterCall, release]⟩

theorem Fronted.near (held : queue.Fronted) : Near (queue.current.getD (.queue 0)) := by
  cases current : queue.current with
  | none => exact near_front
  | some slot => exact held.slot slot current

theorem Fronted.canSkip_ok (held : queue.Fronted) (order : queue.order = [front]) :
    ∃ permitted, ∀ tail, (queue.behind tail).canSkip = .ok permitted := by
  simp only [canSkip, skipTarget_behind order, get?_behind order held.near]
  cases here : queue.get? (queue.current.getD (.queue 0)) with
  | none => exact ⟨false, fun _ => rfl⟩
  | some tree =>
      obtain ⟨permitted, asked, _⟩ := Obligation.canSkip_answers (held.at here)
      exact ⟨permitted, fun _ => asked⟩

theorem Fronted.possibleActions_ok (held : queue.Fronted) :
    ∃ offered, queue.possibleActions = .ok offered := by
  rw [possibleActions]
  split
  · next tree found =>
      obtain ⟨slot, _, here⟩ := Option.bind_eq_some_iff.mp found
      exact (Obligation.possibleActions_lists (held.at here)).imp fun _ => And.left
  · next found =>
      refine (Obligation.allPossible_lists fun tree member => ?_).imp fun _ => And.left
      refine Obligation.possibleActions_lists (held.trees tree (mem_trees_of_mem_focus ?_))
      rw [focus, found]
      exact member

section Calls

variable [DecidableEq Action]

theorem target_behind (order : queue.order = [front]) (action : Action) :
    (queue.behind tail).target action = queue.target action := by
  simp only [target, locate, front?, behind, order]
  cases queue.current <;> rfl

theorem canPerform_behind (order : queue.order = [front])
    (slot : ∀ slot ∈ queue.current, Near slot) (action : Action) :
    (queue.behind tail).canPerform action = queue.canPerform action := by
  have same : (queue.behind tail).current = queue.current := rfl
  rw [canPerform, canPerform, same]
  cases current : queue.current with
  | some slot' => simp only [get?_behind order (slot slot' current)]
  | none => simp only [behind, order, List.singleton_append]

theorem Fronted.canPerform_ok (held : queue.Fronted) (action : Action) :
    ∃ accepted, queue.canPerform action = .ok accepted := by
  cases current : queue.current with
  | none => exact (canPerform_answers action (held.valid current)).imp fun _ => And.left
  | some slot =>
      simp only [canPerform, current]
      cases here : queue.get? slot with
      | none => exact ⟨false, rfl⟩
      | some tree => exact (held.at here).unbroken.canPerform action

theorem Fronted.target_ok (held : queue.Fronted) (action : Action) :
    ∃ found, queue.target action = .ok found := by
  cases current : queue.current with
  | some slot => exact ⟨some slot, by rw [target, current]⟩
  | none =>
      rcases target_cases action (held.valid current) with ⟨_, _, found, _⟩ | ⟨found, _⟩
      · exact ⟨_, found⟩
      · exact ⟨_, found⟩

theorem perform_behind {action : Action} {tree : Obligation Action} (order : queue.order = [front])
    (near : Near slot) (aimed : queue.target action = .ok (some slot))
    (here : queue.get? slot = some tree) :
    (queue.behind tail).perform action =
      (tree.respond (.perform action)).map fun next => (queue.settle slot next).behind tail := by
  rw [perform_at ((target_behind order action).trans aimed) ((get?_behind order near).trans here)]
  simp only [Obligation.respond, settle_behind order near]
  cases tree.canPerform action with
  | error fault => rfl
  | ok accepted =>
      cases accepted with
      | false => rfl
      | true => cases tree.perform action <;> rfl

theorem perform_behind_refused {action : Action} {found : Option QueueSlot}
    (order : queue.order = [front]) (near : ∀ slot ∈ found, Near slot)
    (aimed : queue.target action = .ok found) (nowhere : found.bind queue.get? = none) :
    (queue.behind tail).perform action = .error (.refused .nothingAvailable) := by
  rw [perform_eq, target_behind order, aimed, lift_ok, ok_bind]
  cases found with
  | none => rfl
  | some slot =>
      have none : queue.get? slot = none := nowhere
      rw [Option.bind_some, get?_behind order (near slot rfl), none]
      rfl

theorem skip_behind {tree : Obligation Action} (held : queue.Fronted) (order : queue.order = [front])
    (here : queue.get? (queue.current.getD (.queue 0)) = some tree) (some : tail ≠ []) :
    (queue.behind tail).skip = (tree.respond .skip).map fun next =>
      (queue.settle (queue.current.getD (.queue 0)) next).release.behind tail := by
  simp only [skip, skipTarget_behind order, get?_behind order held.near, here,
    settle_behind order held.near, Obligation.respond]
  cases tree.skip with
  | error stop => rfl
  | ok next =>
      -- the pool does not lapse with something behind the front
      exact congrArg Except.ok (dropIdle_behind (queue.settle _ next).release some)

theorem Fronted.lands (held : queue.Fronted) (order : queue.order = [front])
    (command : Obligation.Command Action) :
    (∀ tail, tail ≠ [] → Container.play command (queue.behind tail) =
      .error (.refused .nothingAvailable)) ∨
    ∃ slot tree, Near slot ∧ queue.get? slot = some tree ∧
      ∀ tail, tail ≠ [] → Container.play command (queue.behind tail) =
        (tree.respond command).map fun next =>
          ((queue.settle slot next).afterCall command).behind tail := by
  cases command with
  | perform action =>
      obtain ⟨found, aimed⟩ := held.target_ok action
      have near : ∀ slot ∈ found, Near slot := by
        rintro slot ⟨⟩
        rcases target_eq_some aimed with current | ⟨_, ⟨_, rfl⟩ | rfl⟩
        · exact held.slot slot current
        · exact near_anyTime _
        · exact near_front
      cases landed : found.bind queue.get? with
      | none => exact .inl fun tail _ => perform_behind_refused order near aimed landed
      | some tree =>
          obtain ⟨slot, rfl, here⟩ := Option.bind_eq_some_iff.mp landed
          exact .inr ⟨slot, tree, near slot rfl, here,
            fun tail _ => perform_behind order (near slot rfl) aimed here⟩
  | skip =>
      cases here : queue.get? (queue.current.getD (.queue 0)) with
      | none =>
          refine .inl fun tail _ => ?_
          show (queue.behind tail).skip = _
          simp only [skip, skipTarget_behind order, get?_behind order held.near, here]
      | some tree =>
          exact .inr ⟨_, tree, held.near, here, fun tail some => skip_behind held order here some⟩

theorem Fronted.framed (held : queue.Fronted) (standing : queue.order ≠ []) :
    Framed behind (fun tail => tail ≠ []) Fronted queue := by
  obtain ⟨front, order⟩ := held.alone.resolve_left standing
  refine ⟨?_, fun action => ?_, ?_, fun command => ?_⟩
  · obtain ⟨permitted, asked⟩ := held.canSkip_ok order
    exact ⟨permitted, fun tail _ => asked tail⟩
  · obtain ⟨accepted, asked⟩ := held.canPerform_ok action
    exact ⟨accepted, fun tail _ => (canPerform_behind order held.slot action).trans asked⟩
  · obtain ⟨offered, asked⟩ := held.possibleActions_ok
    exact ⟨offered, fun tail _ => (possibleActions_behind order held.slot).trans asked⟩
  · rcases held.lands order command with nowhere | ⟨slot, tree, near, here, lands⟩
    · exact ⟨.error (.refused .nothingAvailable), faultless_of_refused rfl, nofun, nowhere⟩
    · exact Container.framed_play (held.at here)
        (fun next nextValid => (held.settle order near here nextValid).afterCall command) lands

end Calls


end Queue

/-! ### What is behind -/

/-- Two stacks with the same valid front, called alike, and two queues with the same pool, front and slot
in progress, which points to one of these: as long as the front is there, queries and calls are answered
alike by the two, and what is behind stays as it was, even by the call that removes the front. -/
theorem behind_focus_untouched [DecidableEq Action] :
    (∀ (front : Obligation Action) (one other : List (Obligation Action))
      (commands : List (Obligation.Command Action)), front.Valid →
      RunsAlike Stack.behind (fun stack => stack.obligations ≠ []) one other ⟨[front]⟩ commands) ∧
    (∀ (queue : Queue Action) (front : Obligation Action) (one other : List (Obligation Action))
      (commands : List (Obligation.Command Action)), queue.order = [front] →
      (∀ tree ∈ front :: queue.anyTime, tree.Valid) →
      (∀ index, queue.current = some (.queue index) → index = 0) → one ≠ [] → other ≠ [] →
      RunsAlike Queue.behind (fun queue => queue.order ≠ []) one other queue commands) := by
  constructor
  · intro front one other commands valid
    refine RunsAlike.of_framed (fun _ => Stack.Fronted.framed) trivial trivial commands ⟨?_, ?_⟩
    · simpa [Stack.Valid] using valid
    · exact .inr ⟨front, rfl⟩
  · intro queue front one other commands order valid slot someOne someOther
    have framed : ∀ queue : Queue Action, queue.Fronted → queue.order ≠ [] →
        Framed Queue.behind (fun tail => tail ≠ []) Queue.Fronted queue :=
      fun _ => Queue.Fronted.framed
    refine RunsAlike.of_framed framed someOne someOther commands
      ⟨?_, .inr ⟨front, order⟩, fun slot' current index same => slot index (same ▸ current)⟩
    intro tree member
    simp only [Queue.trees, order, List.mem_append, List.mem_singleton] at member
    exact valid tree (by simpa [or_comm] using member)

open Obligation (freshRepeat mandatory optional) in
theorem behind_focus_untouched_begun :
    let front : Obligation Scripted.Action := freshRepeat 1 2 (mandatory .a)
    let queue : Queue Scripted.Action := ⟨[optional .c], [front], none, by decide⟩
    let commands : List (Obligation.Command Scripted.Action) :=
      [.perform .a, .perform .c, .skip, .perform .b]
    front.Valid ∧ (∀ tree ∈ front :: queue.anyTime, tree.Valid) ∧
      RunsAlike Stack.behind (fun stack => stack.obligations ≠ []) [mandatory .b] [] ⟨[front]⟩
        commands ∧
      RunsAlike Queue.behind (fun queue => queue.order ≠ []) [mandatory .b] [mandatory .d, front]
        queue commands := by
  intro front queue commands
  have frontValid : front.Valid := front.validate_eq_ok_iff.mp rfl
  have valid : ∀ tree ∈ front :: queue.anyTime, tree.Valid :=
    List.forall_mem_cons.mpr ⟨frontValid, List.forall_mem_singleton.mpr
      ((Obligation.validate_eq_ok_iff _).mp rfl)⟩
  obtain ⟨onStacks, onQueues⟩ := @behind_focus_untouched Scripted.Action _
  exact ⟨frontValid, valid, onStacks front [mandatory .b] [] commands frontValid,
    onQueues queue front [mandatory .b] [mandatory .d, front] commands rfl valid nofun
      (by simp) (by simp)⟩

end TurnObligations
