import TurnObligations.Proofs.Seat
import TurnObligations.Proofs.Turn.Session
import TurnObligations.Proofs.Turn.Step

/-!
What an observer of a session is told: one turn after the other, each a sequence of moves and skips of
the seat whose turn it is, and closed by the end of that turn.
-/

namespace TurnObligations

/-- Whose turn it is, how many turns are over, and for how many seats. -/
structure Round where
  seat : Seat
  turn : UInt32
  players : Nat

namespace Round

structure Follows (before after : Round) : Prop where
  seat : before.seat.next before.players = .ok after.seat
  turn : after.turn.toNat = before.turn.toNat + 1
  players : after.players = before.players

/-- The seats have taken their turns one after the other, from the first. -/
structure InOrder (players : Nat) (round : Round) : Prop where
  seated : round.players = players
  seat : round.seat = .ofTurn players round.turn.toNat

theorem InOrder.follow {players : Nat} {before after : Round} (occupied : 0 < players)
    (few : players ≤ 255) (order : before.InOrder players) (follows : before.Follows after) :
    after.InOrder players where
  seated := follows.players.trans order.seated
  seat := by
    have next := follows.seat
    rw [order.seated, order.seat, Seat.next_ofTurn occupied few] at next
    rw [follows.turn]
    exact (Except.ok.inj next).symm

end Round

/-- Games whose turns go round a table. `Opens` tells that nothing is pending but what the turn of the
current seat opens with. -/
class TableGame (Game : Type) where
  round : Game → Round
  Opens : Game → Prop

class LawfulTable (Game : Type) {Action Pending Reason : Type} [Container Pending Action]
    [TurnGame Game Action Pending Reason] [TableGame Game] : Prop extends LawfulGame Game where
  seat : ∀ game : Game, (TableGame.round game).seat = TurnGame.currentSeat game
  executes : ∀ {action : Action} {game after : Game} {generator drawn : Generator}
    {outcome : Outcome Action},
    TurnGame.execute action game generator = .ok ⟨after, drawn, .ok outcome⟩ →
    TableGame.round after = TableGame.round game
  pends : ∀ (pending : Pending) (game : Game),
    TableGame.round (TurnGame.withPending pending game) = TableGame.round game
  starts : ∀ {game after : Game},
    TurnGame.startNextTurn (TurnGame.withPending (Container.clear (TurnGame.pending game)) game) =
      .ok after →
    (TableGame.round game).Follows (TableGame.round after) ∧ TableGame.Opens after

/-! ### One call -/

def Command.endReply {Action Extra : Type} : Command Action Extra → Seat → Reply
  | .endTurn, next => .next next
  | _, next => .status (.ended next)

theorem Command.endReply_inj {Action Extra : Type} {command : Command Action Extra}
    {seat other : Seat} (same : command.endReply seat = command.endReply other) : seat = other := by
  cases command <;> simpa [endReply] using same

def MoveEvent.IsMoveOf {Action : Type} (seat : Seat) : MoveEvent Action → Prop
  | .performed mover _ _ _ => mover = seat
  | .skipped mover => mover = seat
  | .turnEnded .. => False

theorem MoveEvent.IsMoveOf.not_isTurnEnd {Action : Type} {seat : Seat} {event : MoveEvent Action}
    (move : event.IsMoveOf seat) : event.isTurnEnd = false := by
  cases event with
  | performed => rfl
  | skipped => rfl
  | turnEnded => exact move.elim

section Calls

variable {Game Action Pending Reason Extra : Type} [Container Pending Action]
  [TurnGame Game Action Pending Reason] [TableGame Game]
  {service : Service Game Action Extra}

def Play.LogInTurn (play : Play Game) : Prop :=
  ∀ taken ∈ play.undo.snapshots, ∃ game : Game, TurnGame.snapshot game = .ok taken ∧
    TableGame.round game = TableGame.round play.game

inductive Told (command : Command Action Extra) (play : Play Game) :
    Report Game Action Reason Reply → Prop
  | stays {after : Play Game} {generator : Generator} {moves : List (MoveEvent Action)}
      {result : Except (TurnError Action Reason) Reply}
      (made : ∀ event ∈ moves, event.IsMoveOf (TurnGame.currentSeat play.game))
      (round : TableGame.round after.game = TableGame.round play.game) (log : after.LogInTurn)
      (silent : ∀ next, result ≠ .ok (command.endReply next)) :
      Told command play ⟨after, generator, moves, result⟩
  | ends {game : Game} {generator : Generator} {moves : List (MoveEvent Action)}
      (made : ∀ event ∈ moves, event.IsMoveOf (TurnGame.currentSeat play.game))
      (follows : (TableGame.round play.game).Follows (TableGame.round game))
      (opens : TableGame.Opens game) :
      Told command play ⟨⟨game, .empty⟩, generator,
        moves ++ [.turnEnded (TurnGame.currentSeat play.game) (TurnGame.currentSeat game)],
        .ok (command.endReply (TurnGame.currentSeat game))⟩

def KeepsTurn (service : Service Game Action Extra) : Prop :=
  ∀ request play after events, service request play = .ok (after, events) →
    events = [] ∧ after.undo = play.undo ∧
      TableGame.round after.game = TableGame.round play.game

theorem Play.LogInTurn.record {play : Play Game} {after : Game} {taken : Snapshot}
    (log : play.LogInTurn) (snapped : TurnGame.snapshot play.game = .ok taken)
    (round : TableGame.round after = TableGame.round play.game) :
    LogInTurn ⟨after, play.undo.record taken⟩ := by
  intro earlier member
  rcases List.mem_cons.mp member with rfl | older
  · exact ⟨play.game, snapped, round.symm⟩
  · obtain ⟨game, held, inTurn⟩ := log earlier older
    exact ⟨game, held, inTurn.trans round.symm⟩

theorem Play.LogInTurn.of_subset {play after : Play Game} (log : play.LogInTurn)
    (within : ∀ taken ∈ after.undo.snapshots, taken ∈ play.undo.snapshots)
    (round : TableGame.round after.game = TableGame.round play.game) : after.LogInTurn := by
  intro taken member
  obtain ⟨game, held, inTurn⟩ := log taken (within taken member)
  exact ⟨game, held, inTurn.trans round.symm⟩

theorem told_of_refused {command : Command Action Extra} {play : Play Game} {generator : Generator}
    {error : TurnError Action Reason} (log : play.LogInTurn) :
    Told command play ⟨play, generator, [], .error error⟩ :=
  .stays nofun rfl log nofun

section Lawful

variable [LawfulTable Game]

theorem currentSeat_eq {game other : Game}
    (round : TableGame.round game = TableGame.round other) :
    TurnGame.currentSeat game = TurnGame.currentSeat other := by
  rw [← LawfulTable.seat, ← LawfulTable.seat, round]

theorem told_of_settles {command : Command Action Extra} {play begun after : Play Game}
    {generator : Generator} {move : MoveEvent Action} {events : List (MoveEvent Action)}
    {status : TurnStatus} (asked : command.endReply = fun next => .status (.ended next))
    (made : move.IsMoveOf (TurnGame.currentSeat play.game))
    (round : TableGame.round begun.game = TableGame.round play.game) (log : begun.LogInTurn)
    (settled : begun.Settles after events status) :
    Told command play ⟨after, generator, move :: events, .ok (.status status)⟩ := by
  have moves : ∀ event ∈ [move], event.IsMoveOf (TurnGame.currentSeat play.game) := by
    simpa using made
  cases settled with
  | continues => exact .stays moves round log (by rw [asked]; nofun)
  | @ends game finished started =>
      obtain ⟨follows, opens⟩ := LawfulTable.starts started
      have answer := congrFun asked (TurnGame.currentSeat game)
      rw [currentSeat_eq round, ← answer]
      exact .ends moves (round ▸ follows) opens

theorem perform_told {action : Action} {play : Play Game} {generator : Generator}
    {report : Report Game Action Reason TurnStatus} (log : play.LogInTurn)
    (performed : play.perform action generator = .ok report) :
    Told (.perform action : Command Action Extra) play (report.withReply .status) := by
  cases Play.perform_cases performed with
  | refused => exact told_of_refused log
  | @happened taken consumed pending game _ outcome _ _ _ snapped accepted executed pushed settled =>
      have round : TableGame.round game = TableGame.round play.game :=
        (LawfulTable.executes executed).trans (LawfulTable.pends consumed play.game)
      have same : TableGame.round (TurnGame.withPending pending game) =
          TableGame.round play.game := (LawfulTable.pends pending game).trans round
      refine told_of_settles rfl (currentSeat_eq round) same ?_ settled
      cases undoable : outcome.undoAllowed with
      | false => simp [Play.logged, Play.LogInTurn, UndoLog.empty]
      | true => exact log.record snapped same

theorem skip_told {play : Play Game} {generator : Generator}
    {report : Report Game Action Reason TurnStatus} (log : play.LogInTurn)
    (skipped : play.skip generator = .ok report) :
    Told (.skip : Command Action Extra) play (report.withReply .status) := by
  cases Play.skip_cases skipped with
  | refused => exact told_of_refused log
  | @happened taken pending _ _ _ snapped accepted settled =>
      have round : TableGame.round (TurnGame.withPending pending play.game) =
          TableGame.round play.game := LawfulTable.pends pending play.game
      exact told_of_settles rfl (currentSeat_eq round) round (log.record snapped round) settled

theorem endTurn_told {play : Play Game} {generator : Generator}
    {report : Report Game Action Reason Seat} (log : play.LogInTurn)
    (ended : play.endTurn generator = .ok report) :
    Told (.endTurn : Command Action Extra) play (report.withReply .next) := by
  cases Play.endTurn_cases ended with
  | refused => exact told_of_refused log
  | @happened pending forfeited game accepted given started =>
      have round : TableGame.round forfeited = TableGame.round play.game :=
        given ▸ LawfulTable.pends pending play.game
      obtain ⟨follows, opens⟩ := LawfulTable.starts started
      have none : ∀ event ∈ ([] : List (MoveEvent Action)),
          event.IsMoveOf (TurnGame.currentSeat play.game) := nofun
      rw [currentSeat_eq round]
      exact .ends none (round ▸ follows) opens

theorem takeBack_told {play : Play Game} {generator : Generator}
    {report : Report Game Action Reason Reply} (log : play.LogInTurn)
    (called : play.call service .takeBack generator = .ok report) :
    Told (.takeBack : Command Action Extra) play report := by
  simp only [Play.call, Play.takeBack] at called
  cases snapshots : play.undo.snapshots with
  | nil =>
      simp only [UndoLog.pop?, snapshots] at called
      cases called
      exact .stays nofun rfl log nofun
  | cons taken rest =>
      obtain ⟨game, held, inTurn⟩ := log taken (by simp [snapshots])
      simp only [UndoLog.pop?, snapshots, LawfulGame.restores held] at called
      cases called
      have left : Play.LogInTurn ⟨game, ⟨rest⟩⟩ :=
        log.of_subset (fun earlier member => by simp [snapshots, member]) inTurn
      exact .stays nofun inTurn left nofun

theorem call_told {command : Command Action Extra} {play : Play Game} {generator : Generator}
    {report : Report Game Action Reason Reply} (keeps : KeepsTurn service) (log : play.LogInTurn)
    (called : play.call service command generator = .ok report) : Told command play report := by
  cases command with
  | perform action =>
      obtain ⟨performed, done, result⟩ := bind_eq_ok.mp called
      exact Except.ok.inj result ▸ perform_told log done
  | skip =>
      obtain ⟨skipped, done, result⟩ := bind_eq_ok.mp called
      exact Except.ok.inj result ▸ skip_told log done
  | endTurn =>
      obtain ⟨ended, done, result⟩ := bind_eq_ok.mp called
      exact Except.ok.inj result ▸ endTurn_told log done
  | takeBack => exact takeBack_told log called
  | extra request =>
      obtain ⟨⟨after, events⟩, served, result⟩ := bind_eq_ok.mp called
      obtain ⟨rfl, undo, round⟩ := keeps _ _ _ _ served
      cases result
      exact .stays nofun round (log.of_subset (fun _ => undo ▸ id) round) nofun

end Lawful

end Calls

section Told

variable {Game Action Pending Reason Extra : Type} [Container Pending Action]
  [TurnGame Game Action Pending Reason] [TableGame Game] {command : Command Action Extra}
  {play : Play Game} {report : Report Game Action Reason Reply}

theorem Told.answered (told : Told command play report) (next : Seat) :
    report.result = .ok (command.endReply next) ↔
      .turnEnded (TurnGame.currentSeat play.game) next ∈ report.events := by
  cases told with
  | stays made round log silent =>
      constructor
      · intro ended
        exact absurd ended (silent next)
      · intro listed
        exact (made _ listed).elim
  | @ends game _ moves made follows opens =>
      constructor
      · intro ended
        obtain rfl := Command.endReply_inj (Except.ok.inj ended)
        exact List.mem_concat_self
      · intro listed
        rcases List.mem_append.mp listed with before | last
        · exact (made _ before).elim
        · cases List.mem_singleton.mp last
          rfl

theorem Told.opens (told : Told command play report) {event : MoveEvent Action}
    (listed : event ∈ report.events) (ended : event.isTurnEnd = true) :
    TableGame.Opens report.play.game ∧ report.play.undo = .empty := by
  cases told with
  | stays made => exact absurd ((made event listed).not_isTurnEnd.symm.trans ended) nofun
  | ends made follows opens => exact ⟨opens, rfl⟩

end Told

/-! ### A whole session -/

/-- The events are the moves of one turn after the other, each turn closed by its end and made by the
seat whose turn it is, and then the moves of the turn under way. -/
structure Transcript {Action : Type} (players : Nat) (events : List (MoveEvent Action))
    (finished : List (List (MoveEvent Action))) (underWay : List (MoveEvent Action)) : Prop where
  told : events = (finished.mapIdx fun turn moves =>
    moves ++ [.turnEnded (.ofTurn players turn) (.ofTurn players (turn + 1))]).flatten ++ underWay
  moves : ∀ (turn : Nat) (moves : List (MoveEvent Action)), finished[turn]? = some moves →
    ∀ event ∈ moves, event.IsMoveOf (.ofTurn players turn)
  present : ∀ event ∈ underWay, event.IsMoveOf (.ofTurn players finished.length)

namespace Transcript

variable {Action : Type} {players : Nat} {events moves underWay : List (MoveEvent Action)}
  {finished : List (List (MoveEvent Action))}

theorem nil : Transcript players ([] : List (MoveEvent Action)) [] [] := ⟨rfl, nofun, nofun⟩

theorem append (transcript : Transcript players events finished underWay)
    (made : ∀ event ∈ moves, event.IsMoveOf (.ofTurn players finished.length)) :
    Transcript players (events ++ moves) finished (underWay ++ moves) where
  told := by rw [transcript.told, List.append_assoc]
  moves := transcript.moves
  present event member := by
    rcases List.mem_append.mp member with before | now
    · exact transcript.present event before
    · exact made event now

theorem finish (transcript : Transcript players events finished underWay) :
    Transcript players
      (events ++ [.turnEnded (.ofTurn players finished.length)
        (.ofTurn players (finished.length + 1))])
      (finished ++ [underWay]) [] where
  told := by
    rw [transcript.told, List.mapIdx_concat]
    simp
  moves turn moves found := by
    rcases Nat.lt_trichotomy turn finished.length with earlier | rfl | later
    · rw [List.getElem?_append_left earlier] at found
      exact transcript.moves turn moves found
    · rw [List.getElem?_concat_length] at found
      exact Option.some.inj found ▸ transcript.present
    · rw [List.getElem?_eq_none (by simp; omega)] at found
      cases found
  present := nofun

end Transcript

theorem turnsEnded_append {Action : Type} (events more : List (MoveEvent Action)) :
    turnsEnded (events ++ more) = turnsEnded events + turnsEnded more := List.countP_append

theorem turnsEnded_moves {Action : Type} {seat : Seat} {moves : List (MoveEvent Action)}
    (made : ∀ event ∈ moves, event.IsMoveOf seat) : turnsEnded moves = 0 := by
  refine List.countP_eq_zero.mpr ?_
  intro event member
  simp [(made event member).not_isTurnEnd]

section Sessions

variable {Game Action Pending Reason Extra : Type} [Container Pending Action]
  [TurnGame Game Action Pending Reason] [TableGame Game]

/-- What an observer of a session at a table of `players` may rely on after every call. -/
structure Session.FollowsProtocol (players : Nat) (session : Session Game Action Reason Extra) :
    Prop where
  seat : TurnGame.currentSeat session.play.game =
    .ofTurn players (TableGame.round session.play.game).turn.toNat
  counted : turnsEnded session.events = (TableGame.round session.play.game).turn.toNat
  transcript : ∃ finished underWay,
    finished.length = (TableGame.round session.play.game).turn.toNat ∧
      Transcript players session.events finished underWay
  answered : ∀ call ∈ session.calls, ∀ next,
    call.report.result = .ok (call.command.endReply next) ↔
      .turnEnded (TurnGame.currentSeat call.game) next ∈ call.report.events
  opens : ∀ call ∈ session.calls, ∀ event ∈ call.report.events, event.isTurnEnd = true →
    TableGame.Opens call.report.play.game ∧ call.report.play.undo = .empty

structure Session.InTurn (players : Nat) (session : Session Game Action Reason Extra) : Prop where
  order : (TableGame.round session.play.game).InOrder players
  log : session.play.LogInTurn
  counted : turnsEnded session.events = (TableGame.round session.play.game).turn.toNat
  transcript : ∃ finished underWay,
    finished.length = (TableGame.round session.play.game).turn.toNat ∧
      Transcript players session.events finished underWay
  told : ∀ call ∈ session.calls, ∃ play : Play Game, play.game = call.game ∧
    Told call.command play call.report

namespace Session.InTurn

variable {players : Nat}

theorem start {game : Game} (opening : TableGame.round game = ⟨⟨0⟩, 0, players⟩)
    (generator : Generator) :
    (Session.start game generator : Session Game Action Reason Extra).InTurn players where
  order := by
    have first : (⟨0⟩ : Seat) = .ofTurn players 0 := by simp [Seat.ofTurn]
    simp only [Session.start, Play.start, opening]
    exact ⟨rfl, first⟩
  log := nofun
  counted := by
    simp only [Session.start, Play.start, opening]
    rfl
  transcript := by
    simp only [Session.start, Play.start, opening]
    exact ⟨[], [], rfl, .nil⟩
  told := nofun

variable [LawfulTable Game] {service : Service Game Action Extra}
  {session next : Session Game Action Reason Extra}

theorem step {command : Command Action Extra} (occupied : 0 < players) (few : players ≤ 255)
    (keeps : KeepsTurn service) (inTurn : session.InTurn players)
    (stepped : session.step service command = .ok next) : next.InTurn players := by
  obtain ⟨report, called, rfl⟩ := Session.step_eq_ok.mp stepped
  have told := call_told keeps inTurn.log called
  have all : ∀ call ∈ (⟨command, session.play.game, session.generator, report⟩ :: session.calls :
      List (Call Game Action Reason Extra)), ∃ play : Play Game, play.game = call.game ∧
        Told call.command play call.report := by
    intro call member
    rcases List.mem_cons.mp member with rfl | earlier
    · exact ⟨session.play, rfl, told⟩
    · exact inTurn.told call earlier
  obtain ⟨finished, underWay, length, transcript⟩ := inTurn.transcript
  -- the turn under way is the one after those finished, and its seat is the current one
  have seat : TurnGame.currentSeat session.play.game = .ofTurn players finished.length := by
    rw [← LawfulTable.seat, inTurn.order.seat, length]
  cases told with
  | stays made round log silent =>
      refine ⟨round ▸ inTurn.order, log, ?_, ?_, all⟩
      · rw [Session.events_step, turnsEnded_append, turnsEnded_moves made, round]
        exact inTurn.counted
      · rw [Session.events_step, round]
        exact ⟨finished, underWay ++ _, length, transcript.append (seat ▸ made)⟩
  | @ends game _ moves made follows opens =>
      have order := inTurn.order.follow occupied few follows
      have next : TurnGame.currentSeat game = .ofTurn players (finished.length + 1) := by
        rw [← LawfulTable.seat, order.seat, follows.turn, length]
      refine ⟨order, nofun, ?_, ?_, all⟩
      · rw [Session.events_step, turnsEnded_append, turnsEnded_append, turnsEnded_moves made,
          follows.turn, ← inTurn.counted]
        rfl
      · rw [Session.events_step, follows.turn, ← length, seat, next, ← List.append_assoc]
        exact ⟨finished ++ [underWay ++ moves], [], by simp,
          (transcript.append (seat ▸ made)).finish⟩

theorem run {commands : List (Command Action Extra)} (occupied : 0 < players) (few : players ≤ 255)
    (keeps : KeepsTurn service) (inTurn : session.InTurn players)
    (ran : session.run service commands = .ok next) : next.InTurn players := by
  refine Session.run_preserves (fun session => session.InTurn players) ?_ inTurn ran
  intro command session next inTurn stepped
  exact inTurn.step occupied few keeps stepped

theorem followsProtocol (inTurn : session.InTurn players) : session.FollowsProtocol players where
  seat := by rw [← LawfulTable.seat, inTurn.order.seat]
  counted := inTurn.counted
  transcript := inTurn.transcript
  answered call member next := by
    obtain ⟨play, stood, told⟩ := inTurn.told call member
    exact stood ▸ told.answered next
  opens call member event listed ended := by
    obtain ⟨play, stood, told⟩ := inTurn.told call member
    exact told.opens listed ended

end Session.InTurn

end Sessions

end TurnObligations
