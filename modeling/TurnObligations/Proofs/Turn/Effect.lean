import TurnObligations.Proofs.Turn.Session
import TurnObligations.Proofs.Turn.Step

/-!
Which moves and skips of a session are in effect, and how a game that agrees with those in effect goes
on agreeing with them, whatever is taken back.
-/

namespace TurnObligations

section InEffect

variable {Game Action Reason Extra : Type}

/-- The moves and skips, latest first, that went through and have not been taken back. -/
def inEffect : List (Call Game Action Reason Extra) → List (Call Game Action Reason Extra)
  | [] => []
  | call :: earlier =>
      match call.report.result with
      | .error _ => inEffect earlier
      | .ok reply =>
          match call.command with
          | .perform _ | .skip => call :: inEffect earlier
          | .takeBack => if reply = .undone true then (inEffect earlier).tail else inEffect earlier
          | .endTurn | .extra _ => inEffect earlier

def Session.inEffect (session : Session Game Action Reason Extra) :
    List (Call Game Action Reason Extra) :=
  TurnObligations.inEffect session.calls

end InEffect

section Agreement

variable {Game Action Pending Reason Extra : Type} [Container Pending Action]
  [TurnGame Game Action Pending Reason] {service : Service Game Action Extra}
  {holds : Game → Prop} {agrees : List (Call Game Action Reason Extra) → Game → Prop}

inductive Agrees (agrees : List (Call Game Action Reason Extra) → Game → Prop) :
    Play Game → List (Call Game Action Reason Extra) → Prop
  | fresh {play : Play Game} {calls : List (Call Game Action Reason Extra)}
      (empty : play.undo = .empty) (here : agrees calls play.game) : Agrees agrees play calls
  | made {earlier play : Play Game} {call : Call Game Action Reason Extra}
      {calls : List (Call Game Action Reason Extra)} {taken : Snapshot}
      (before : Agrees agrees earlier calls) (snapped : TurnGame.snapshot earlier.game = .ok taken)
      (log : play.undo = earlier.undo.record taken) (here : agrees (call :: calls) play.game) :
      Agrees agrees play (call :: calls)

/-- What has to be shown of each call for a game to go on agreeing: moves and skips count, and whatever
else goes through leaves the agreement as it is and nothing new to be taken back. -/
structure Counts (service : Service Game Action Extra) (holds : Game → Prop)
    (agrees : List (Call Game Action Reason Extra) → Game → Prop) : Prop where
  performs : ∀ {play : Play Game} {action : Action} {generator : Generator}
    {report : Report Game Action Reason TurnStatus} {status : TurnStatus}
    {calls : List (Call Game Action Reason Extra)}, agrees calls play.game →
    play.perform action generator = .ok report → report.result = .ok status →
    agrees (⟨.perform action, play.game, generator, report.withReply .status⟩ :: calls)
      report.play.game
  skips : ∀ {play : Play Game} {generator : Generator}
    {report : Report Game Action Reason TurnStatus} {status : TurnStatus}
    {calls : List (Call Game Action Reason Extra)}, agrees calls play.game →
    play.skip generator = .ok report → report.result = .ok status →
    agrees (⟨.skip, play.game, generator, report.withReply .status⟩ :: calls) report.play.game
  endsTurn : ∀ {play : Play Game} {generator : Generator} {report : Report Game Action Reason Seat}
    {calls : List (Call Game Action Reason Extra)}, agrees calls play.game →
    play.endTurn generator = .ok report → agrees calls report.play.game
  serves : ∀ {play after : Play Game} {request : Extra} {events : List (MoveEvent Action)}
    {calls : List (Call Game Action Reason Extra)}, holds play.game → agrees calls play.game →
    service request play = .ok (after, events) →
    after = play ∨ (agrees calls after.game ∧ after.undo = .empty)

namespace Agrees

variable {play after : Play Game} {calls : List (Call Game Action Reason Extra)}
  {call : Call Game Action Reason Extra}

theorem here (agreeing : Agrees agrees play calls) : agrees calls play.game := by
  cases agreeing with
  | fresh _ here => exact here
  | made _ _ _ here => exact here

theorem move {taken : Snapshot} (agreeing : Agrees agrees play calls)
    (snapped : TurnGame.snapshot play.game = .ok taken)
    (log : after.undo = play.undo.record taken ∨ after.undo = .empty)
    (counted : agrees (call :: calls) after.game) : Agrees agrees after (call :: calls) := by
  rcases log with recorded | empty
  · exact .made agreeing snapped recorded counted
  · exact .fresh empty counted

theorem takeBack [LawfulGame Game] (agreeing : Agrees agrees play calls) :
    (play.takeBack = (play, .ok false)) ∨
      ∃ earlier, play.takeBack = (earlier, .ok true) ∧ Agrees agrees earlier calls.tail := by
  cases agreeing with
  | fresh empty => exact .inl (by rw [Play.takeBack, empty]; rfl)
  | @made earlier _ _ _ taken before snapped log =>
      refine .inr ⟨earlier, ?_, before⟩
      simp only [Play.takeBack, log, UndoLog.pop?_record, LawfulGame.restores snapped play.game]

theorem log_of_settles {events : List (MoveEvent Action)} {status : TurnStatus}
    (settled : play.Settles after events status) :
    after.undo = play.undo ∨ after.undo = .empty := by
  cases settled with
  | continues => exact .inl rfl
  | ends => exact .inr rfl

theorem perform [LawfulGame Game] {action : Action} {generator : Generator}
    {report : Report Game Action Reason TurnStatus} {made : List (Call Game Action Reason Extra)}
    (counts : Counts service holds agrees) (agreeing : Agrees agrees play (inEffect made))
    (performed : play.perform action generator = .ok report) :
    Agrees agrees report.play (inEffect
      (⟨.perform action, play.game, generator, report.withReply .status⟩ :: made)) := by
  have counted (status : TurnStatus) (happened : report.result = .ok status) :=
    counts.performs agreeing.here performed happened
  cases Play.perform_cases performed with
  | refused => exact agreeing
  | @happened _ _ _ _ _ outcome _ _ status snapped _ _ _ settled =>
      refine agreeing.move snapped ?_ (counted status rfl)
      rcases log_of_settles settled with same | empty
      · cases undoable : outcome.undoAllowed with
        | false => exact .inr (same.trans (by rw [undoable]; rfl))
        | true => exact .inl (same.trans (by rw [undoable]; rfl))
      · exact .inr empty

theorem skip {generator : Generator} {report : Report Game Action Reason TurnStatus}
    {made : List (Call Game Action Reason Extra)} (counts : Counts service holds agrees)
    (agreeing : Agrees agrees play (inEffect made)) (skipped : play.skip generator = .ok report) :
    Agrees agrees report.play (inEffect
      (⟨.skip, play.game, generator, report.withReply .status⟩ :: made)) := by
  have counted (status : TurnStatus) (happened : report.result = .ok status) :=
    counts.skips agreeing.here skipped happened
  cases Play.skip_cases skipped with
  | refused => exact agreeing
  | happened snapped _ settled =>
      exact agreeing.move snapped (log_of_settles settled) (counted _ rfl)

theorem step [LawfulGame Game] {session next : Session Game Action Reason Extra}
    {command : Command Action Extra} (counts : Counts service holds agrees)
    (held : holds session.play.game) (agreeing : Agrees agrees session.play session.inEffect)
    (stepped : session.step service command = .ok next) :
    Agrees agrees next.play next.inEffect := by
  obtain ⟨report, called, rfl⟩ := Session.step_eq_ok.mp stepped
  cases command with
  | perform action =>
      obtain ⟨performed, done, result⟩ := bind_eq_ok.mp called
      cases result
      exact agreeing.perform counts done
  | skip =>
      obtain ⟨skipped, done, result⟩ := bind_eq_ok.mp called
      cases result
      exact agreeing.skip counts done
  | endTurn =>
      obtain ⟨ended, done, result⟩ := bind_eq_ok.mp called
      cases result
      have counted := counts.endsTurn agreeing.here done
      cases Play.endTurn_cases done with
      | refused => exact agreeing
      | happened => exact .fresh rfl counted
  | takeBack =>
      rcases agreeing.takeBack with answered | ⟨earlier, answered, before⟩
      · simp only [Play.call, answered] at called
        cases called
        exact agreeing
      · simp only [Play.call, answered] at called
        cases called
        exact before
  | extra request =>
      obtain ⟨⟨after, events⟩, served, result⟩ := bind_eq_ok.mp called
      cases result
      rcases counts.serves held agreeing.here served with rfl | ⟨counted, empty⟩
      · exact agreeing
      · exact .fresh empty counted

end Agrees

end Agreement

end TurnObligations
