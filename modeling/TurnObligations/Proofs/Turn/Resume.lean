import TurnObligations.Proofs.Turn.Upheld

/-!
Games that are saved and loaded again. The undo log is all that a save leaves out, and only taking back
looks at it: to every other call the loaded game answers as the one that was saved.
-/

namespace TurnObligations

section Resume

variable {Game Action Pending Reason Extra Result : Type} [Container Pending Action]
  [TurnGame Game Action Pending Reason]

/-! ### One call -/

def Report.unlogged (report : Report Game Action Reason Result) :
    Report Game Action Reason Result :=
  { report with play := .start report.play.game }

def SameUnlogged (left right : Except Fault (Report Game Action Reason Result)) : Prop :=
  left.map Report.unlogged = right.map Report.unlogged

def Forgetful (service : Service Game Action Extra) : Prop :=
  ∀ request (play : Play Game),
    (service request play).map (fun answer => (answer.1.game, answer.2)) =
      (service request (.start play.game)).map fun answer => (answer.1.game, answer.2)

theorem SameUnlogged.withReply {left right : Except Fault (Report Game Action Reason Result)}
    (same : SameUnlogged left right) (reply : Result → Reply) :
    SameUnlogged (do return (← left).withReply reply) (do return (← right).withReply reply) := by
  rcases map_eq_map_cases same with ⟨fault, rfl, rfl⟩ | ⟨report, report', rfl, rfl, alike⟩
  · rfl
  · exact congrArg (fun unlogged => Except.ok (Report.withReply reply unlogged)) alike

namespace Play

theorem conclude_unlogged (before : Snapshot) (action : Action) (log log' : UndoLog) (game : Game)
    (generator : Generator) (outcome : Outcome Action) :
    SameUnlogged
      (conclude before action log game generator outcome :
        Except Fault (Report Game Action Reason TurnStatus))
      (conclude before action log' game generator outcome) := by
  rw [conclude, conclude]
  cases Container.pushOutcome outcome (TurnGame.pending game) with
  | error fault => rfl
  | ok pending =>
      simp only [ok_bind, endTurnIfDone]
      -- a turn that ends empties the log, whatever it holds
      cases TurnGame.shouldEnd (TurnGame.withPending pending game) with
      | true => rfl
      | false => rfl

theorem rollBack_unlogged (before : Snapshot) (log log' : UndoLog) (game : Game)
    (generator : Generator) (reason : Reason) :
    (rollBack before log game generator reason : Report Game Action Reason TurnStatus).unlogged =
      (rollBack before log' game generator reason).unlogged := by
  rw [rollBack, rollBack]
  cases TurnGame.restore before game with
  | error error => rfl
  | ok restored => rfl

theorem perform_unlogged (action : Action) (play : Play Game) (generator : Generator) :
    SameUnlogged (play.perform action generator)
      ((Play.start play.game).perform action generator) := by
  rw [perform, perform, show (Play.start play.game).game = play.game from rfl]
  cases TurnGame.snapshot play.game with
  | error fault => rfl
  | ok before =>
      rw [ok_bind, ok_bind]
      cases Container.perform action (TurnGame.pending play.game) with
      | error stop => cases stop <;> rfl
      | ok pending =>
          dsimp only
          cases TurnGame.execute action (TurnGame.withPending pending play.game) generator with
          | error fault => rfl
          | ok executed =>
              obtain ⟨game, drawn, result⟩ := executed
              cases result with
              | error reason => exact congrArg Except.ok (rollBack_unlogged ..)
              | ok outcome => exact conclude_unlogged ..

theorem skip_unlogged (play : Play Game) (generator : Generator) :
    SameUnlogged (play.skip generator) ((Play.start play.game).skip generator) := by
  rw [skip, skip, show (Play.start play.game).game = play.game from rfl]
  cases TurnGame.snapshot play.game with
  | error fault => rfl
  | ok before =>
      rw [ok_bind, ok_bind]
      cases Container.skip (TurnGame.pending play.game) with
      | error stop => cases stop <;> rfl
      | ok pending =>
          simp only [endTurnIfDone]
          cases TurnGame.shouldEnd (TurnGame.withPending pending play.game) with
          | true => rfl
          | false => rfl

theorem endTurn_unlogged (play : Play Game) (generator : Generator) :
    SameUnlogged (play.endTurn generator) ((Play.start play.game).endTurn generator) := by
  rw [endTurn, endTurn, show (Play.start play.game).game = play.game from rfl]
  cases Container.skipAll (TurnGame.pending play.game) with
  | error stop => cases stop <;> rfl
  | ok pending => rfl

theorem call_unlogged {service : Service Game Action Extra} {command : Command Action Extra}
    (forgetful : Forgetful service) (onward : command ≠ .takeBack) (play : Play Game)
    (generator : Generator) :
    SameUnlogged (play.call service command generator)
      ((Play.start play.game).call service command generator) := by
  cases command with
  | perform action => exact (perform_unlogged action play generator).withReply .status
  | skip => exact (skip_unlogged play generator).withReply .status
  | endTurn => exact (endTurn_unlogged play generator).withReply .next
  | takeBack => exact absurd rfl onward
  | extra request =>
      rw [call, call]
      rcases map_eq_map_cases (forgetful request play) with
        ⟨fault, left, right⟩ | ⟨answer, answer', left, right, same⟩
      · rw [left, right]
        rfl
      · rw [left, right]
        exact congrArg (fun seen => Except.ok
          (⟨.start seen.1, generator, seen.2, .ok .served⟩ : Report Game Action Reason Reply)) same

end Play

/-! ### All later calls -/

/-- What there is to see of a call: the game it leaves and the save of that, the generator, what an
observer is told and the reply. -/
structure Sight (Game Action Reason : Type) where
  game : Game
  save : String
  generator : Generator
  events : List (MoveEvent Action)
  result : Except (TurnError Action Reason) Reply

def Report.sight [Storable Game] (report : Report Game Action Reason Reply) :
    Sight Game Action Reason :=
  ⟨report.play.game, Storage.toText report.play.game, report.generator, report.events,
    report.result⟩

namespace Play

/-- What there is to see of one call after the other, each of them given a generator. -/
def watch [Storable Game] (service : Service Game Action Extra) :
    List (Command Action Extra × Generator) → Play Game →
      Except Fault (List (Sight Game Action Reason))
  | [], _ => .ok []
  | (command, generator) :: rest, play => do
      let report ← play.call service command generator
      return report.sight :: (← watch service rest report.play)

theorem watch_start [Storable Game] {service : Service Game Action Extra}
    {later : List (Command Action Extra × Generator)} (forgetful : Forgetful service)
    (onward : ∀ call ∈ later, call.1 ≠ .takeBack) (play : Play Game) :
    (Play.start play.game).watch service later = play.watch service later := by
  induction later generalizing play with
  | nil => rfl
  | cons call rest ih =>
      obtain ⟨command, generator⟩ := call
      have rest_onward : ∀ call ∈ rest, call.1 ≠ .takeBack :=
        fun call member => onward call (by simp [member])
      have same := call_unlogged forgetful (onward (command, generator) (by simp)) play generator
      rw [watch, watch]
      rcases map_eq_map_cases same with
        ⟨fault, left, right⟩ | ⟨report, report', left, right, alike⟩
      · rw [left, right]
      · have game : report.play.game = report'.play.game :=
          congrArg (fun unlogged => unlogged.play.game) alike
        have sight : report.sight = report'.sight := by
          show report.unlogged.sight = report'.unlogged.sight
          rw [alike]
        rw [left, right, ok_bind, ok_bind, sight, ← ih rest_onward report.play,
          ← ih rest_onward report'.play, game]

/-- The game as it is loaded. What may be taken back is not saved. -/
def load? [Saved Game] (text : String) : Except StorageError (Play Game) :=
  (Saved.ofText? text).map .start

/-- The game comes back from its save as it is, but with nothing to take back, and nothing that is
called on it afterwards shows that it has been saved and loaded. -/
structure Resumes [Saved Game] (service : Service Game Action Extra) (play : Play Game) : Prop where
  loads : Play.load? (Storage.toText play.game) = .ok ⟨play.game, .empty⟩
  alike : ∀ later : List (Command Action Extra × Generator),
    (∀ call ∈ later, call.1 ≠ .takeBack) →
      Play.watch service later ⟨play.game, .empty⟩ = play.watch service later

theorem resumes_of_loads [Saved Game] {service : Service Game Action Extra} {play : Play Game}
    (forgetful : Forgetful service)
    (loads : Saved.ofText? (Storage.toText play.game) = .ok play.game) : play.Resumes service where
  loads := by
    rw [load?, loads]
    rfl
  alike later onward := watch_start forgetful onward play

end Play

theorem forgetful_upkeep [Saved Game] {service : Service Game Action Extra}
    (forgetful : Forgetful service) : Forgetful (upkeep service) := by
  intro request play
  cases request with
  | saveAndLoad =>
      have same : play.saveAndLoad.game = (Play.start play.game).saveAndLoad.game := by
        rw [Play.saveAndLoad, Play.saveAndLoad, show (Play.start play.game).game = play.game from rfl]
        cases (Saved.ofText? (Storage.toText play.game) : Except StorageError Game) with
        | ok game => rfl
        | error error => rfl
      exact congrArg (fun game => Except.ok (game, [])) same
  | finishTurn => rfl
  | own request => exact forgetful request play

end Resume

end TurnObligations
