import TurnObligations.Proofs.Answer
import TurnObligations.Turn.Driver

/-!
Games played call by call: what is asked, what comes of it, and what an observer of the whole session
has been told.
-/

namespace TurnObligations

/-- What may be asked of a game under way. `Extra` is what a game offers beside the turn rules. -/
inductive Command (Action Extra : Type) where
  | perform (action : Action)
  | skip
  | endTurn
  | takeBack
  | extra (request : Extra)
deriving DecidableEq, Repr

inductive Reply where
  | status (status : TurnStatus)
  | next (seat : Seat)
  | undone (done : Bool)
  | served
deriving DecidableEq, Repr

abbrev Service (Game Action Extra : Type) :=
  Extra → Play Game → Except Fault (Play Game × List (MoveEvent Action))

def noService {Game Action : Type} : Service Game Action Empty := nofun

def Report.withReply {Game Action Reason Result : Type} (reply : Result → Reply)
    (report : Report Game Action Reason Result) : Report Game Action Reason Reply :=
  { report with result := report.result.map reply }

/-- A call that has been made: where the game stood, and what came of it. -/
structure Call (Game Action Reason Extra : Type) where
  command : Command Action Extra
  game : Game
  generator : Generator
  report : Report Game Action Reason Reply

structure Session (Game Action Reason Extra : Type) where
  play : Play Game
  generator : Generator
  calls : List (Call Game Action Reason Extra)

section Calls

variable {Game Action Pending Reason Extra : Type} [Container Pending Action]
  [TurnGame Game Action Pending Reason]

def Play.call (service : Service Game Action Extra) (command : Command Action Extra)
    (play : Play Game) (generator : Generator) : Except Fault (Report Game Action Reason Reply) :=
  match command with
  | .perform action => do return (← play.perform action generator).withReply .status
  | .skip => do return (← play.skip generator).withReply .status
  | .endTurn => do return (← play.endTurn generator).withReply .next
  | .takeBack =>
      let (after, answer) := play.takeBack
      .ok ⟨after, generator, [], (answer.mapError .storage).map .undone⟩
  | .extra request => do
      let (after, events) ← service request play
      return ⟨after, generator, events, .ok .served⟩

def Play.Inert (service : Service Game Action Extra) (play : Play Game) : Prop :=
  ∀ command generator, ∃ report, play.call service command generator = .ok report ∧
    report.play = play ∧ report.generator = generator

namespace Session

def start (game : Game) (generator : Generator) : Session Game Action Reason Extra :=
  ⟨.start game, generator, []⟩

def step (service : Service Game Action Extra) (command : Command Action Extra)
    (session : Session Game Action Reason Extra) :
    Except Fault (Session Game Action Reason Extra) := do
  let report ← session.play.call service command session.generator
  return ⟨report.play, report.generator,
    ⟨command, session.play.game, session.generator, report⟩ :: session.calls⟩

def run (service : Service Game Action Extra) :
    List (Command Action Extra) → Session Game Action Reason Extra →
      Except Fault (Session Game Action Reason Extra)
  | [], session => .ok session
  | command :: rest, session => session.step service command >>= run service rest

def events (session : Session Game Action Reason Extra) : List (MoveEvent Action) :=
  session.calls.reverse.flatMap fun call => call.report.events

variable {service : Service Game Action Extra} {session next : Session Game Action Reason Extra}

theorem step_eq_ok {command : Command Action Extra} :
    session.step service command = .ok next ↔
      ∃ report, session.play.call service command session.generator = .ok report ∧
        next = ⟨report.play, report.generator,
          ⟨command, session.play.game, session.generator, report⟩ :: session.calls⟩ := by
  rw [step, bind_eq_ok]
  constructor
  · rintro ⟨report, called, result⟩
    exact ⟨report, called, (Except.ok.inj result).symm⟩
  · rintro ⟨report, called, rfl⟩
    exact ⟨report, called, rfl⟩

theorem run_append (commands more : List (Command Action Extra)) :
    session.run service (commands ++ more) =
      session.run service commands >>= run service more := by
  induction commands generalizing session with
  | nil => rfl
  | cons command rest ih =>
      simp only [List.cons_append, run]
      cases session.step service command with
      | error fault => rfl
      | ok next => exact ih

theorem run_preserves (invariant : Session Game Action Reason Extra → Prop)
    (preserves : ∀ command session next, invariant session →
      step service command session = .ok next → invariant next)
    {commands : List (Command Action Extra)} (initial : invariant session)
    (ran : session.run service commands = .ok next) : invariant next := by
  induction commands generalizing session with
  | nil => exact Except.ok.inj ran ▸ initial
  | cons command rest ih =>
      obtain ⟨between, stepped, onward⟩ := bind_eq_ok.mp ran
      exact ih (preserves command session between initial stepped) onward

theorem run_inert (inert : session.play.Inert service) (commands : List (Command Action Extra)) :
    ∃ reached, session.run service commands = .ok reached ∧ reached.play = session.play ∧
      reached.generator = session.generator := by
  induction commands generalizing session with
  | nil => exact ⟨session, rfl, rfl, rfl⟩
  | cons command rest ih =>
      obtain ⟨report, called, stays, idle⟩ := inert command session.generator
      obtain ⟨next, stepped, samePlay, sameGenerator⟩ : ∃ next, session.step service command =
          .ok next ∧ next.play = session.play ∧ next.generator = session.generator :=
        ⟨_, step_eq_ok.mpr ⟨report, called, rfl⟩, stays, idle⟩
      have still : next.play.Inert service := samePlay ▸ inert
      obtain ⟨reached, ran, same, drawn⟩ := ih still
      rw [run, stepped, ok_bind]
      exact ⟨reached, ran, same.trans samePlay, drawn.trans sameGenerator⟩

theorem events_step {command : Command Action Extra} {report : Report Game Action Reason Reply} :
    events ⟨report.play, report.generator,
      ⟨command, session.play.game, session.generator, report⟩ :: session.calls⟩ =
      session.events ++ report.events := by
  simp [events]

end Session

end Calls

end TurnObligations
