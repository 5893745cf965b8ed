import TurnObligations.Proofs.Turn.Session
import TurnObligations.Proofs.Turn.Step

/-!
What can be taken back. The calls of a session tell by themselves which moves and skips that is; the
undo log holds the game before each of these, and playing them again leads to the same state.
-/

namespace TurnObligations

def MoveEvent.isReversible {Action : Type} : MoveEvent Action → Bool
  | .performed _ _ _ undoAllowed => undoAllowed
  | .skipped _ => true
  | .turnEnded .. => false

/-- A move or skip that may be taken back, and what was asked for since beside the turn rules. -/
structure Moment (Game Action Reason Extra : Type) where
  call : Call Game Action Reason Extra
  requests : List Extra

namespace Moment

variable {Game Action Reason Extra : Type}

def commands (moment : Moment Game Action Reason Extra) : List (Command Action Extra) :=
  moment.call.command :: moment.requests.map .extra

def ask (request : Extra) : List (Moment Game Action Reason Extra) →
    List (Moment Game Action Reason Extra)
  | [] => []
  | moment :: older => { moment with requests := moment.requests ++ [request] } :: older

def commandsOf (moments : List (Moment Game Action Reason Extra)) : List (Command Action Extra) :=
  moments.reverse.flatMap commands

end Moment

section Held

variable {Game Action Reason Extra : Type}

def Call.isReversible (call : Call Game Action Reason Extra) : Bool :=
  call.report.events.all MoveEvent.isReversible

/-- The moves and skips, latest first, that calls have left to be taken back: those of the turn
under way since the last move that may not, less the ones already taken back. -/
def held : List (Call Game Action Reason Extra) → List (Moment Game Action Reason Extra)
  | [] => []
  | call :: earlier =>
      match call.report.result with
      | .error _ => held earlier
      | .ok reply =>
          match call.command with
          | .perform _ | .skip => if call.isReversible then ⟨call, []⟩ :: held earlier else []
          | .endTurn => []
          | .takeBack => if reply = .undone true then (held earlier).tail else held earlier
          | .extra request => Moment.ask request (held earlier)

theorem held_move {call : Call Game Action Reason Extra} {earlier : List (Call Game Action Reason Extra)}
    {reply : Reply} (happened : call.report.result = .ok reply)
    (asked : call.command = .skip ∨ ∃ action, call.command = .perform action) :
    held (call :: earlier) = if call.isReversible then ⟨call, []⟩ :: held earlier else [] := by
  rcases asked with skip | ⟨action, perform⟩
  · simp only [held, happened, skip]
  · simp only [held, happened, perform]

def Session.held (session : Session Game Action Reason Extra) :
    List (Moment Game Action Reason Extra) :=
  TurnObligations.held session.calls

end Held

section Traces

variable {Game Action Pending Reason Extra : Type} [Container Pending Action]
  [TurnGame Game Action Pending Reason] {service : Service Game Action Extra}

def Replays (service : Service Game Action Extra) (generator : Generator)
    (commands : List (Command Action Extra)) (earlier later : Play Game) : Prop :=
  ∀ calls : List (Call Game Action Reason Extra),
    ∃ again, Session.run service commands ⟨earlier, generator, calls⟩ = .ok again ∧
      again.play = later ∧ again.generator = generator

/-- How the undo log came about: each snapshot in it is of the state that one of the moments left
behind, with the log that it had then and the generator that there is now. -/
inductive Traced (service : Service Game Action Extra) (generator : Generator) :
    Play Game → List (Moment Game Action Reason Extra) → Prop
  | begun {play : Play Game} (fresh : play.undo = .empty) : Traced service generator play []
  | made {earlier play : Play Game} {moment : Moment Game Action Reason Extra}
      {older : List (Moment Game Action Reason Extra)} {taken : Snapshot}
      (before : Traced service generator earlier older) (stood : moment.call.game = earlier.game)
      (steady : moment.call.generator = generator)
      (snapped : TurnGame.snapshot earlier.game = .ok taken)
      (log : play.undo = earlier.undo.record taken)
      (replays : Replays service generator moment.commands earlier play) :
      Traced service generator play (moment :: older)

theorem Replays.append {generator : Generator} {commands more : List (Command Action Extra)}
    {earlier between later : Play Game}
    (first : Replays service generator commands earlier between)
    (second : Replays service generator more between later) :
    Replays service generator (commands ++ more) earlier later := by
  intro calls
  obtain ⟨reached, ran, rfl, rfl⟩ := first calls
  obtain ⟨again, onward, done⟩ := second reached.calls
  exact ⟨again, by rw [Session.run_append, ran, ok_bind, onward], done⟩

theorem Replays.single {generator : Generator} {command : Command Action Extra}
    {earlier : Play Game} {report : Report Game Action Reason Reply}
    (called : earlier.call service command generator = .ok report)
    (steady : report.generator = generator) :
    Replays service generator [command] earlier report.play := by
  intro calls
  exact ⟨_, by rw [Session.run, Session.step, called]; rfl, rfl, steady⟩

def KeepsUndo (service : Service Game Action Extra) : Prop :=
  ∀ request play after events, service request play = .ok (after, events) → after.undo = play.undo

namespace Traced

variable {generator : Generator} {play after : Play Game}
  {moments older : List (Moment Game Action Reason Extra)}
  {moment : Moment Game Action Reason Extra}

theorem takeBack_nil (traced : Traced service generator play ([] : List (Moment Game Action Reason Extra))) :
    play.takeBack = (play, .ok false) := by
  cases traced with
  | begun fresh => rw [Play.takeBack, fresh]; rfl

theorem takeBack_cons [LawfulGame Game] (traced : Traced service generator play (moment :: older)) :
    ∃ earlier, play.takeBack = (earlier, .ok true) ∧ earlier.game = moment.call.game ∧
      earlier.undo = ⟨play.undo.snapshots.tail⟩ ∧ Traced service generator earlier older ∧
      Replays service generator moment.commands earlier play := by
  cases traced with
  | @made earlier _ _ _ taken before stood steady snapped log replays =>
      refine ⟨earlier, ?_, stood.symm, ?_, before, replays⟩
      · simp only [Play.takeBack, log, UndoLog.pop?_record, LawfulGame.restores snapped play.game]
      · rw [log]
        rfl

theorem ask {request : Extra} {events : List (MoveEvent Action)} (keeps : KeepsUndo service)
    (traced : Traced service generator play moments)
    (served : service request play = .ok (after, events)) :
    Traced service generator after (Moment.ask request moments) := by
  have same := keeps _ _ _ _ served
  cases traced with
  | begun fresh => exact .begun (same.trans fresh)
  | made before stood steady snapped log replays =>
      refine .made before stood steady snapped (same.trans log) ?_
      have called : play.call service (.extra request) generator =
          .ok (⟨after, generator, events, .ok .served⟩ : Report Game Action Reason Reply) := by
        rw [Play.call, served]
        rfl
      have more := replays.append (.single called rfl)
      simpa [Moment.commands] using more

theorem move (call : Call Game Action Reason Extra) {calls : List (Call Game Action Reason Extra)}
    {reply : Reply} {taken : Snapshot} (traced : Traced service generator play (held calls))
    (asked : call.command = .skip ∨ ∃ action, call.command = .perform action)
    (stood : call.game = play.game) (steady : call.generator = generator)
    (called : play.call service call.command generator = .ok call.report)
    (happened : call.report.result = .ok reply) (snapped : TurnGame.snapshot play.game = .ok taken)
    (kept : call.isReversible = true →
      call.report.generator = generator ∧ call.report.play.undo = play.undo.record taken)
    (dropped : call.isReversible = false → call.report.play.undo = .empty) :
    Traced service call.report.generator call.report.play (held (call :: calls)) := by
  rw [held_move happened asked]
  cases reversible : call.isReversible with
  | false => exact .begun (dropped reversible)
  | true =>
      obtain ⟨drawn, log⟩ := kept reversible
      rw [drawn]
      exact .made traced stood steady snapped log (.single called drawn)

theorem settles_cases {play after : Play Game} {events : List (MoveEvent Action)}
    {status : TurnStatus} (settled : play.Settles after events status) :
    (events.all MoveEvent.isReversible = true ∧ after.undo = play.undo) ∨
      (events.all MoveEvent.isReversible = false ∧ after.undo = .empty) := by
  cases settled with
  | continues => exact .inl ⟨rfl, rfl⟩
  | ends => exact .inr ⟨rfl, rfl⟩

theorem perform [LawfulGame Game] {action : Action} {calls : List (Call Game Action Reason Extra)}
    {report : Report Game Action Reason TurnStatus}
    (traced : Traced service generator play (held calls))
    (performed : play.perform action generator = .ok report) :
    Traced service report.generator report.play
      (held (⟨.perform action, play.game, generator, report.withReply .status⟩ :: calls)) := by
  have called : play.call service (.perform action) generator =
      .ok (report.withReply .status) := by rw [Play.call, performed]; rfl
  cases Play.perform_cases performed with
  | refused => exact traced
  | happened snapped accepted executed pushed settled =>
      refine move ⟨.perform action, play.game, generator, _⟩ traced (.inr ⟨action, rfl⟩) rfl rfl
        called rfl snapped ?_ ?_
      -- an event list is reversible if the move allows undo and the turn goes on
      · intro reversible
        obtain ⟨undoable, onward⟩ := Bool.and_eq_true_iff.mp reversible
        refine ⟨LawfulGame.allows executed undoable, ?_⟩
        rcases settles_cases settled with ⟨_, log⟩ | ⟨finished, _⟩
        · exact log.trans (if_pos undoable)
        · exact absurd (onward.symm.trans finished) nofun
      · intro irreversible
        rcases settles_cases settled with ⟨onward, log⟩ | ⟨_, fresh⟩
        · rcases Bool.and_eq_false_iff.mp irreversible with forbidden | finished
          · refine log.trans (if_neg ?_)
            exact Bool.eq_false_iff.mp forbidden
          · exact absurd (onward.symm.trans finished) nofun
        · exact fresh

theorem skip {calls : List (Call Game Action Reason Extra)}
    {report : Report Game Action Reason TurnStatus}
    (traced : Traced service generator play (held calls))
    (skipped : play.skip generator = .ok report) :
    Traced service report.generator report.play
      (held (⟨.skip, play.game, generator, report.withReply .status⟩ :: calls)) := by
  have called : play.call service .skip generator = .ok (report.withReply .status) := by
    rw [Play.call, skipped]
    rfl
  cases Play.skip_cases skipped with
  | refused => exact traced
  | happened snapped accepted settled =>
      refine move ⟨.skip, play.game, generator, _⟩ traced (.inl rfl) rfl rfl called rfl snapped ?_ ?_
      · intro reversible
        rcases settles_cases settled with ⟨_, log⟩ | ⟨finished, _⟩
        · exact ⟨rfl, log⟩
        · exact absurd (reversible.symm.trans finished) nofun
      · intro irreversible
        rcases settles_cases settled with ⟨onward, _⟩ | ⟨_, fresh⟩
        · exact absurd (onward.symm.trans irreversible) nofun
        · exact fresh

section Sessions

variable [LawfulGame Game] {session next : Session Game Action Reason Extra}

theorem stepBack (traced : Traced service session.generator session.play session.held)
    (latest : session.held = moment :: older) :
    ∃ back, session.step service .takeBack = .ok back ∧ back.play.game = moment.call.game ∧
      back.generator = session.generator ∧ back.held = older ∧
      Traced service back.generator back.play back.held ∧
      Replays service session.generator moment.commands back.play session.play := by
  rw [latest] at traced
  obtain ⟨earlier, answered, game, _, before, replays⟩ := traced.takeBack_cons
  have called : session.play.call service .takeBack session.generator =
      .ok (⟨earlier, session.generator, [], .ok (.undone true)⟩ :
        Report Game Action Reason Reply) := by
    simp only [Play.call, answered]
    rfl
  have rest : (TurnObligations.held session.calls).tail = older := congrArg List.tail latest
  refine ⟨_, Session.step_eq_ok.mpr ⟨_, called, rfl⟩, game, rfl, rest, ?_, replays⟩
  show Traced service session.generator earlier (TurnObligations.held session.calls).tail
  rw [rest]
  exact before

theorem step {command : Command Action Extra} (keeps : KeepsUndo service)
    (traced : Traced service session.generator session.play session.held)
    (stepped : session.step service command = .ok next) :
    Traced service next.generator next.play next.held := by
  obtain ⟨report, called, rfl⟩ := Session.step_eq_ok.mp stepped
  cases command with
  | perform action =>
      obtain ⟨performed, done, result⟩ := bind_eq_ok.mp called
      cases result
      exact traced.perform done
  | skip =>
      obtain ⟨skipped, done, result⟩ := bind_eq_ok.mp called
      cases result
      exact traced.skip done
  | endTurn =>
      obtain ⟨ended, done, result⟩ := bind_eq_ok.mp called
      cases result
      cases Play.endTurn_cases done with
      | refused => exact traced
      | happened => exact .begun rfl
  | takeBack =>
      cases latest : session.held with
      | nil =>
          have answered := (latest ▸ traced).takeBack_nil
          simp only [Play.call, answered] at called
          cases called
          exact traced
      | cons moment older =>
          obtain ⟨back, again, _, _, _, before, _⟩ := traced.stepBack latest
          exact Except.ok.inj (again.symm.trans stepped) ▸ before
  | extra request =>
      obtain ⟨⟨after, events⟩, served, result⟩ := bind_eq_ok.mp called
      cases result
      exact traced.ask keeps served

theorem run {commands : List (Command Action Extra)} (keeps : KeepsUndo service)
    (traced : Traced service session.generator session.play session.held)
    (ran : session.run service commands = .ok next) :
    Traced service next.generator next.play next.held := by
  refine Session.run_preserves
    (fun session => Traced service session.generator session.play session.held) ?_ traced ran
  intro command session next traced stepped
  exact traced.step keeps stepped

theorem replays {newer : List (Moment Game Action Reason Extra)}
    (traced : Traced service session.generator session.play session.held)
    (listed : session.held = newer ++ moment :: older) :
    ∃ back, session.run service (List.replicate (newer.length + 1) .takeBack) = .ok back ∧
      back.play.game = moment.call.game ∧ back.generator = session.generator ∧
      back.held = older ∧
      Replays service session.generator (Moment.commandsOf (newer ++ [moment]))
        back.play session.play := by
  -- the latest moment is taken back first and comes last when all is played again
  induction newer generalizing session with
  | nil =>
      obtain ⟨back, stepped, game, steady, rest, _, replays⟩ := traced.stepBack listed
      refine ⟨back, ?_, game, steady, rest, ?_⟩
      · rw [List.length_nil, List.replicate_one, Session.run, stepped]
        rfl
      · simpa [Moment.commandsOf] using replays
  | cons first rest ih =>
      obtain ⟨between, stepped, _, steady, left, before, last⟩ := traced.stepBack listed
      obtain ⟨back, ran, game, same, rest, replays⟩ := ih before left
      refine ⟨back, ?_, game, same.trans steady, rest, ?_⟩
      · rw [List.length_cons, List.replicate_succ, Session.run, stepped, ok_bind, ran]
      · rw [steady] at replays
        simpa [Moment.commandsOf] using replays.append last

end Sessions

end Traced

structure Session.UndoIsExact (service : Service Game Action Extra)
    (session : Session Game Action Reason Extra) : Prop where
  /-- The log has one snapshot for each move or skip held, of the game just before it. -/
  log : (session.held.mapM fun moment => TurnGame.snapshot moment.call.game) =
    .ok session.play.undo.snapshots
  steady : ∀ moment ∈ session.held, moment.call.generator = session.generator
  refuses : session.play.takeBack = (session.play, .ok false) ↔ session.held = []
  restores : ∀ moment older, session.held = moment :: older →
    session.play.takeBack =
      (⟨moment.call.game, ⟨session.play.undo.snapshots.tail⟩⟩, .ok true)
  /-- Taking back any number of them and asking for the same again leads to the same state. -/
  replays : ∀ newer moment older, session.held = newer ++ moment :: older →
    ∃ back again, session.run service (List.replicate (newer.length + 1) .takeBack) = .ok back ∧
      back.play.game = moment.call.game ∧ back.generator = session.generator ∧
      back.held = older ∧
      back.run service (Moment.commandsOf (newer ++ [moment])) = .ok again ∧
      again.play = session.play ∧ again.generator = session.generator

namespace Traced

variable {generator : Generator} {play : Play Game}
  {moments : List (Moment Game Action Reason Extra)}

theorem log (traced : Traced service generator play moments) :
    (moments.mapM fun moment => TurnGame.snapshot moment.call.game) =
      .ok play.undo.snapshots := by
  induction traced with
  | begun fresh =>
      rw [fresh]
      rfl
  | made before stood steady snapped log replays ih =>
      rw [List.mapM_cons, stood, snapped, ok_bind, ih, ok_bind, log]
      rfl

theorem steady (traced : Traced service generator play moments) :
    ∀ moment ∈ moments, moment.call.generator = generator := by
  induction traced with
  | begun fresh => nofun
  | made before stood steady snapped log replays ih =>
      intro moment member
      rcases List.mem_cons.mp member with rfl | older
      · exact steady
      · exact ih moment older

theorem undoIsExact [LawfulGame Game] {session : Session Game Action Reason Extra}
    (traced : Traced service session.generator session.play session.held) :
    session.UndoIsExact service where
  log := traced.log
  steady := traced.steady
  refuses := by
    constructor
    · intro refused
      cases latest : session.held with
      | nil => rfl
      | cons moment older =>
          obtain ⟨earlier, answered, _⟩ := (latest ▸ traced).takeBack_cons
          rw [answered] at refused
          cases (Prod.mk.inj refused).2
    · intro none
      exact (none ▸ traced).takeBack_nil
  restores moment older latest := by
    obtain ⟨earlier, answered, game, log, _⟩ := (latest ▸ traced).takeBack_cons
    rw [answered, ← game, ← log]
  replays newer moment older listed := by
    obtain ⟨back, ran, game, steady, rest, replays⟩ := traced.replays listed
    obtain ⟨again, onward, play, generator⟩ := replays back.calls
    rw [← steady] at onward
    exact ⟨back, again, ran, game, steady, rest, onward, play, generator⟩

end Traced

end Traces

end TurnObligations
