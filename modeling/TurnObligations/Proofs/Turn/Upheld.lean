import TurnObligations.Proofs.Storage.Lawful
import TurnObligations.Proofs.Turn.Session
import TurnObligations.Proofs.Turn.Step

/-!
What games under way keep, whatever calls are made of them: each call stays in the turn, goes back to
a state of the same turn, or ends the turn and opens the next.
-/

namespace TurnObligations

section Upheld

variable {Game Action Pending Reason Request : Type} [Container Pending Action]
  [TurnGame Game Action Pending Reason]

/-- `holds` is kept by every move, skip and forfeit that leaves the turn open, `ends` is what is left of
it when the turn is over, and `opens` holds once the next turn has been opened. -/
structure Upheld (holds ends opens : Game → Prop) : Prop where
  performs : ∀ {action : Action} {game after : Game} {consumed left : Pending}
    {generator drawn : Generator} {outcome : Outcome Action}, holds game →
    Container.perform action (TurnGame.pending game) = .ok consumed →
    TurnGame.execute action (TurnGame.withPending consumed game) generator =
      .ok ⟨after, drawn, .ok outcome⟩ →
    Container.pushOutcome outcome (TurnGame.pending after) = .ok left →
    ends (TurnGame.withPending left after) ∧
      (TurnGame.shouldEnd (TurnGame.withPending left after) = false →
        holds (TurnGame.withPending left after))
  skips : ∀ {game : Game} {left : Pending}, holds game →
    Container.skip (TurnGame.pending game) = .ok left →
    ends (TurnGame.withPending left game) ∧
      (TurnGame.shouldEnd (TurnGame.withPending left game) = false →
        holds (TurnGame.withPending left game))
  forfeits : ∀ {game : Game} {left : Pending}, holds game →
    Container.skipAll (TurnGame.pending game) = .ok left → ends (TurnGame.withPending left game)
  starts : ∀ {game next : Game}, ends game →
    TurnGame.startNextTurn
      (TurnGame.withPending (Container.clear (TurnGame.pending game)) game) = .ok next → opens next

theorem Upheld.and {holds ends opens holds' ends' opens' : Game → Prop}
    (upheld : Upheld holds ends opens) (other : Upheld holds' ends' opens') :
    Upheld (fun game => holds game ∧ holds' game) (fun game => ends game ∧ ends' game)
      (fun game => opens game ∧ opens' game) where
  performs both accepted executed pushed := by
    obtain ⟨ended, stays⟩ := upheld.performs both.1 accepted executed pushed
    obtain ⟨ended', stays'⟩ := other.performs both.2 accepted executed pushed
    exact ⟨⟨ended, ended'⟩, fun unfinished => ⟨stays unfinished, stays' unfinished⟩⟩
  skips both accepted := by
    obtain ⟨ended, stays⟩ := upheld.skips both.1 accepted
    obtain ⟨ended', stays'⟩ := other.skips both.2 accepted
    exact ⟨⟨ended, ended'⟩, fun unfinished => ⟨stays unfinished, stays' unfinished⟩⟩
  forfeits both accepted := ⟨upheld.forfeits both.1 accepted, other.forfeits both.2 accepted⟩
  starts both started := ⟨upheld.starts both.1 started, other.starts both.2 started⟩

namespace Play

/-- The game has the property, and so has every state that taking back leads to. -/
structure Keeps (holds : Game → Prop) (play : Play Game) : Prop where
  here : holds play.game
  back : ∀ taken ∈ play.undo.snapshots, ∃ game, TurnGame.snapshot game = .ok taken ∧ holds game

structure Opened (opens : Game → Prop) (play : Play Game) : Prop where
  here : opens play.game
  fresh : play.undo = .empty

variable {holds ends opens : Game → Prop} {play after : Play Game}

theorem Opened.keeps (implies : ∀ game, opens game → holds game) (opened : play.Opened opens) :
    play.Keeps holds where
  here := implies _ opened.here
  back taken listed := by
    rw [opened.fresh] at listed
    cases listed

theorem Keeps.start {game : Game} (here : holds game) : (Play.start game).Keeps holds := ⟨here, nofun⟩

theorem Keeps.record {game : Game} {taken : Snapshot} (keeps : play.Keeps holds)
    (snapped : TurnGame.snapshot play.game = .ok taken) (here : holds game) :
    Keeps holds ⟨game, play.undo.record taken⟩ where
  here := here
  back earlier listed := by
    rcases List.mem_cons.mp listed with rfl | older
    · exact ⟨play.game, snapped, keeps.here⟩
    · exact keeps.back earlier older

theorem Keeps.logged {game : Game} {taken : Snapshot} (undoAllowed : Bool) (keeps : play.Keeps holds)
    (snapped : TurnGame.snapshot play.game = .ok taken) (here : holds game) :
    Keeps holds ⟨game, Play.logged taken undoAllowed play.undo⟩ := by
  cases undoAllowed with
  | false => exact ⟨here, nofun⟩
  | true => exact keeps.record snapped here

theorem takeBack_keeps [LawfulGame Game] (keeps : play.Keeps holds) :
    play.takeBack.1.Keeps holds ∧ ∀ flaw, play.takeBack.2 ≠ .error flaw := by
  rw [takeBack]
  cases snapshots : play.undo.snapshots with
  | nil =>
      simp only [UndoLog.pop?, snapshots]
      exact ⟨keeps, nofun⟩
  | cons taken rest =>
      obtain ⟨game, held, here⟩ := keeps.back taken (by simp [snapshots])
      simp only [UndoLog.pop?, snapshots, LawfulGame.restores held]
      exact ⟨⟨here, fun earlier listed => keeps.back earlier (by simp [snapshots, listed])⟩, nofun⟩

/-! ### One call -/

def Turned (holds opens : Game → Prop) (play : Play Game) : Prop :=
  play.Keeps holds ∨ play.Opened opens

theorem settles_turned {events : List (MoveEvent Action)} {status : TurnStatus}
    (upheld : Upheld holds ends opens) (ended : ends play.game)
    (kept : TurnGame.shouldEnd play.game = false → play.Keeps holds)
    (settled : play.Settles after events status) : after.Turned holds opens := by
  cases settled with
  | continues pending => exact .inl (kept pending)
  | ends finished started => exact .inr ⟨upheld.starts ended started, rfl⟩

theorem perform_turned [LawfulGame Game] {action : Action} {generator : Generator}
    {report : Report Game Action Reason TurnStatus} (upheld : Upheld holds ends opens)
    (keeps : play.Keeps holds) (performed : play.perform action generator = .ok report) :
    report.play.Turned holds opens := by
  cases perform_cases performed with
  | refused => exact .inl keeps
  | happened snapped accepted executed pushed settled =>
      obtain ⟨ended, stays⟩ := upheld.performs keeps.here accepted executed pushed
      exact settles_turned upheld ended (fun pending => keeps.logged _ snapped (stays pending)) settled

theorem skip_turned {generator : Generator} {report : Report Game Action Reason TurnStatus}
    (upheld : Upheld holds ends opens) (keeps : play.Keeps holds)
    (skipped : play.skip generator = .ok report) : report.play.Turned holds opens := by
  cases skip_cases skipped with
  | refused => exact .inl keeps
  | happened snapped accepted settled =>
      obtain ⟨ended, stays⟩ := upheld.skips keeps.here accepted
      exact settles_turned upheld ended (fun pending => keeps.record snapped (stays pending)) settled

theorem endTurn_turned {generator : Generator} {report : Report Game Action Reason Seat}
    (upheld : Upheld holds ends opens) (keeps : play.Keeps holds)
    (ended : play.endTurn generator = .ok report) : report.play.Turned holds opens := by
  cases endTurn_cases ended with
  | refused => exact .inl keeps
  | happened accepted given started =>
      exact .inr ⟨upheld.starts (given ▸ upheld.forfeits keeps.here accepted) started, rfl⟩

def Respects (service : Service Game Action Request) (holds opens : Game → Prop) : Prop :=
  ∀ request play after events, play.Keeps holds → service request play = .ok (after, events) →
    after.Turned holds opens

theorem call_turned [LawfulGame Game] {service : Service Game Action Request}
    {command : Command Action Request} {generator : Generator}
    {report : Report Game Action Reason Reply} (upheld : Upheld holds ends opens)
    (respects : Respects service holds opens) (keeps : play.Keeps holds)
    (called : play.call service command generator = .ok report) :
    report.play.Turned holds opens := by
  cases command with
  | perform action =>
      obtain ⟨performed, done, result⟩ := bind_eq_ok.mp called
      cases result
      exact perform_turned upheld keeps done
  | skip =>
      obtain ⟨skipped, done, result⟩ := bind_eq_ok.mp called
      cases result
      exact skip_turned upheld keeps done
  | endTurn =>
      obtain ⟨ended, done, result⟩ := bind_eq_ok.mp called
      cases result
      exact endTurn_turned upheld keeps done
  | takeBack =>
      cases called
      exact .inl (takeBack_keeps keeps).1
  | extra request =>
      obtain ⟨⟨after, events⟩, served, result⟩ := bind_eq_ok.mp called
      cases result
      exact respects request play after events keeps served

end Play

/-! ### A whole session -/

theorem Session.run_keeps [LawfulGame Game] {service : Service Game Action Request}
    {holds ends : Game → Prop} {commands : List (Command Action Request)}
    {session reached : Session Game Action Reason Request} (upheld : Upheld holds ends holds)
    (respects : Play.Respects service holds holds) (keeps : session.play.Keeps holds)
    (ran : session.run service commands = .ok reached) : reached.play.Keeps holds := by
  refine Session.run_preserves (fun session => session.play.Keeps holds) ?_ keeps ran
  intro command session next keeps stepped
  obtain ⟨report, called, rfl⟩ := Session.step_eq_ok.mp stepped
  rcases Play.call_turned upheld respects keeps called with stays | opened
  · exact stays
  · exact opened.keeps fun _ => id

/-! ### Saving, loading and giving the turn away -/

inductive Upkeep (Request : Type) where
  | saveAndLoad
  | finishTurn
  | own (request : Request)
deriving DecidableEq, Repr

/-- The game as it is loaded from its own save. The undo log is not saved, and a save that is not
accepted is not loaded. -/
def Play.saveAndLoad [Saved Game] (play : Play Game) : Play Game :=
  match Saved.ofText? (Storage.toText play.game) with
  | .ok game => .start game
  | .error _ => play

def upkeep [Saved Game] (service : Service Game Action Request) :
    Service Game Action (Upkeep Request)
  | .saveAndLoad, play => .ok (play.saveAndLoad, [])
  | .finishTurn, play => do
      let (after, event, _) ← play.finishTurn
      return (after, [event])
  | .own request, play => service request play

theorem upkeep_respects [Saved Game] {service : Service Game Action Request}
    {holds ends opens : Game → Prop} (upheld : Upheld holds ends opens)
    (ends_of : ∀ game, holds game → ends game)
    (loads : ∀ game loaded, holds game → Saved.ofText? (Storage.toText game) = .ok loaded →
      holds loaded)
    (respects : Play.Respects service holds opens) :
    Play.Respects (upkeep service) holds opens := by
  intro request play after events keeps served
  cases request with
  | saveAndLoad =>
      cases served
      rw [Play.saveAndLoad]
      split
      · next game loaded => exact .inl (.start (loads _ _ keeps.here loaded))
      · exact .inl keeps
  | finishTurn =>
      obtain ⟨⟨after, event, next⟩, finished, result⟩ := bind_eq_ok.mp served
      obtain ⟨game, started, rfl, _, _⟩ := Play.finishTurn_cases finished
      cases result
      exact .inr ⟨upheld.starts (ends_of _ keeps.here) started, rfl⟩
  | own request => exact respects request play after events keeps served

/-! ### What a save must satisfy -/

/-- A save is accepted exactly if its obligations are well formed and every player has a place. -/
class GatedGame (Game : Type) {Action Pending Reason : outParam Type} [Container Pending Action]
    [TurnGame Game Action Pending Reason] [Saved Game] where
  Valid : Game → Prop
  Placed : Game → Prop
  validate_eq_ok_iff (game : Game) : Saved.validate game = .ok () ↔ Valid game ∧ Placed game

namespace GatedGame

variable [Saved Game] [GatedGame Game]

structure Intact (game : Game) : Prop where
  valid : Valid game
  placed : Placed game

theorem intact_iff (game : Game) : Intact game ↔ Saved.validate game = .ok () := by
  rw [validate_eq_ok_iff]
  exact ⟨fun intact => ⟨intact.valid, intact.placed⟩, fun ⟨valid, placed⟩ => ⟨valid, placed⟩⟩

theorem intact_of_accepted {game : Game} {text : String} (accepted : Saved.ofText? text = .ok game) :
    Intact game :=
  (intact_iff game).mpr (Saved.validate_of_check accepted)

/-- New games, and games loaded from a save that is accepted. -/
inductive Begun (New : Game → Prop) : Game → Prop
  | new {game : Game} (new : New game) : Begun New game
  | loaded {game : Game} {text : String} (accepted : Saved.ofText? text = .ok game) : Begun New game

theorem Begun.intact {New : Game → Prop} {game : Game}
    (accepts : ∀ game, New game → Saved.validate game = .ok ()) (begun : Begun New game) :
    Intact game := by
  cases begun with
  | new new => exact (intact_iff game).mpr (accepts game new)
  | loaded accepted => exact intact_of_accepted accepted

theorem upheld
    (pends : ∀ (pending : Pending) {game : Game}, Placed game →
      Placed (TurnGame.withPending pending game))
    (performs : ∀ {action : Action} {game after : Game} {consumed left : Pending}
      {generator drawn : Generator} {outcome : Outcome Action}, Intact game →
      Container.perform action (TurnGame.pending game) = .ok consumed →
      TurnGame.execute action (TurnGame.withPending consumed game) generator =
        .ok ⟨after, drawn, .ok outcome⟩ →
      Container.pushOutcome outcome (TurnGame.pending after) = .ok left →
      Intact (TurnGame.withPending left after))
    (skips : ∀ {game : Game} {left : Pending}, Intact game →
      Container.skip (TurnGame.pending game) = .ok left → Valid (TurnGame.withPending left game))
    (starts : ∀ {game next : Game}, Placed game →
      TurnGame.startNextTurn
        (TurnGame.withPending (Container.clear (TurnGame.pending game)) game) = .ok next →
      Intact next) :
    Upheld (Intact : Game → Prop) Placed Intact where
  performs intact accepted executed pushed :=
    have after := performs intact accepted executed pushed
    ⟨after.placed, fun _ => after⟩
  skips intact accepted :=
    have placed := pends _ intact.placed
    ⟨placed, fun _ => ⟨skips intact accepted, placed⟩⟩
  forfeits intact _ := pends _ intact.placed
  starts := starts

theorem upkeep_keeps {service : Service Game Action Request}
    (upheld : Upheld (Intact : Game → Prop) Placed Intact)
    (respects : Play.Respects service Intact Intact) :
    Play.Respects (upkeep service) Intact Intact :=
  upkeep_respects upheld (fun _ => Intact.placed) (fun _ _ _ => intact_of_accepted) respects

end GatedGame

end Upheld

end TurnObligations
