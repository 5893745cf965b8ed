import Mathlib
import TurnObligations.Proofs.Bazaar.Game
import TurnObligations.Proofs.Trail.Game
import TurnObligations.Proofs.Turn.Undo

/-!
What leaves no trace in either game: a call that is refused, by the obligations or by the game itself,
and a move or skip that is taken back.
-/

namespace TurnObligations

namespace Play

section Refusals

variable {Game Action Pending Reason Result : Type} [Container Pending Action]
  [TurnGame Game Action Pending Reason]

/-- If the call has been refused, game, undo log and generator are as before, and observers have heard
nothing; the refusal is not that the state could not be brought back. -/
def UnchangedIfRefused (play : Play Game) (generator : Generator)
    (report : Report Game Action Reason Result) : Prop :=
  ∀ error, report.result = .error error →
    report.play = play ∧ report.generator = generator ∧ report.events = [] ∧
      ∀ flaw, error ≠ .storage flaw

structure RefusalsHarmless (play : Play Game) (generator : Generator) : Prop where
  perform : ∀ action report, play.perform action generator = .ok report →
    play.UnchangedIfRefused generator report
  skip : ∀ report, play.skip generator = .ok report → play.UnchangedIfRefused generator report
  endTurn : ∀ report, play.endTurn generator = .ok report →
    play.UnchangedIfRefused generator report

theorem refusalsHarmless [LawfulGame Game] (play : Play Game) (generator : Generator) :
    play.RefusalsHarmless generator where
  perform action report performed error answered := by
    cases perform_cases performed with
    | refused _ restored =>
        cases answered
        exact ⟨rfl, rfl, rfl, restored⟩
    | happened => cases answered
  skip report skipped error answered := by
    cases skip_cases skipped with
    | refused _ restored =>
        cases answered
        exact ⟨rfl, rfl, rfl, restored⟩
    | happened => cases answered
  endTurn report ended error answered := by
    cases endTurn_cases ended with
    | refused _ restored =>
        cases answered
        exact ⟨rfl, rfl, rfl, restored⟩
    | happened => cases answered

end Refusals

end Play

/-- In both games and in every state of play, a call that answers with an error has changed nothing:
also where the obligation was already consumed and the game rejected the move. -/
theorem refused_call_changes_nothing :
    (∀ (play : Play Trail.State) (generator : Generator), play.RefusalsHarmless generator) ∧
    (∀ (play : Play Bazaar.State) (generator : Generator), play.RefusalsHarmless generator) :=
  ⟨Play.refusalsHarmless, Play.refusalsHarmless⟩

theorem refused_call_changes_nothing_poor :
    let ranch : Play Trail.State := .start
      ⟨[.ranch], ⟨[⟨some 0, 2, [1], [4], []⟩]⟩, ⟨0⟩, 6, .ofList Trail.Location.ranch.obligations⟩
    let jeweler : Play Bazaar.State := .start
      ⟨⟨2, 3, 5⟩, [.jeweler], ⟨[⟨some 0, 1, 0, 0, []⟩]⟩, ⟨0⟩, 6,
        { Queue.empty with order := Bazaar.Place.jeweler.obligations }⟩
    let generator := Generator.ofSeed 1
    ranch.perform .buyCattle generator =
      .ok ⟨ranch, generator, [], .error (.rejected (.notEnoughDollars 3 2))⟩ ∧
    jeweler.perform .buyRuby generator =
      .ok ⟨jeweler, generator, [], .error (.rejected (.notEnoughLira 2 1))⟩ := by
  intro ranch jeweler generator
  constructor
  · have answered : (ranch.perform .buyCattle generator).map (·.result) =
        .ok (.error (.rejected (.notEnoughDollars 3 2))) := by cbv
    obtain ⟨⟨_, _, _, _⟩, performed, rfl⟩ := map_eq_ok.mp answered
    obtain ⟨rfl, rfl, rfl, _⟩ :=
      (refused_call_changes_nothing.1 ranch generator).perform .buyCattle _ performed _ rfl
    exact performed
  · have answered : (jeweler.perform .buyRuby generator).map (·.result) =
        .ok (.error (.rejected (.notEnoughLira 2 1))) := by cbv
    obtain ⟨⟨_, _, _, _⟩, performed, rfl⟩ := map_eq_ok.mp answered
    obtain ⟨rfl, rfl, rfl, _⟩ :=
      (refused_call_changes_nothing.2 jeweler generator).perform .buyRuby _ performed _ rfl
    exact performed

/-! ### Taking back -/

/-- Whatever calls a session of either game is made of, accepted or refused, the undo log holds the
state before each move and skip that they leave to be taken back, taking back restores the latest of
these or answers that there is none, and the generator stands where it stood then. -/
theorem undo_exact :
    (∀ (game : Trail.State) (generator : Generator)
      (commands : List (Command Trail.Action Empty))
      (session : Session Trail.State Trail.Action Trail.Rejection Empty),
      Session.run noService commands (.start game generator) = .ok session →
      session.UndoIsExact noService) ∧
    (∀ (game : Bazaar.State) (generator : Generator)
      (commands : List (Command Bazaar.Action Bazaar.Request))
      (session : Session Bazaar.State Bazaar.Action Bazaar.Rejection Bazaar.Request),
      Session.run Bazaar.service commands (.start game generator) = .ok session →
      session.UndoIsExact Bazaar.service) := by
  constructor
  · intro game generator commands session ran
    have keeps : KeepsUndo (noService : Service Trail.State Trail.Action Empty) := nofun
    have begun : Traced noService generator (.start game)
        ([] : List (Moment Trail.State Trail.Action Trail.Rejection Empty)) := .begun rfl
    exact (Traced.run keeps begun ran).undoIsExact
  · intro game generator commands session ran
    have keeps : KeepsUndo Bazaar.service := by
      intro request play after events served
      cases request
      cases served
      rfl
    have begun : Traced Bazaar.service generator (.start game)
        ([] : List (Moment Bazaar.State Bazaar.Action Bazaar.Rejection Bazaar.Request)) :=
      .begun rfl
    exact (Traced.run keeps begun ran).undoIsExact

theorem undo_exact_trade :
    let rich : Bazaar.Merchant := ⟨none, 2, 2, 0, []⟩
    let bazaar : Bazaar.State := ⟨⟨12, 3, 5⟩, [.market], ⟨[rich, rich]⟩, ⟨0⟩, 0,
      { Queue.empty with order := [.mandatory .move] }⟩
    let arrived : Bazaar.State := { bazaar with
      merchants := ⟨[{ rich with place := some 0 }, rich]⟩
      queue := { Queue.empty with order := Bazaar.Place.market.obligations } }
    let ranch : Trail.State := ⟨[.ranch], ⟨[⟨some 0, 6, [1], [2], [3]⟩]⟩, ⟨0⟩, 4,
      .ofList Trail.Location.ranch.obligations⟩
    let generator := Generator.ofSeed 1
    (∃ sold start : Session Bazaar.State Bazaar.Action Bazaar.Rejection Bazaar.Request,
      Session.run Bazaar.service [.perform .move, .perform .sellGoods, .extra .releaseCurrent]
        (.start bazaar generator) = .ok sold ∧
      sold.play.takeBack.1.game = arrived ∧
      sold.run Bazaar.service [.takeBack, .takeBack] = .ok start ∧ start.play.game = bazaar) ∧
    (∃ bought : Session Trail.State Trail.Action Trail.Rejection Empty,
      Session.run noService [.perform .buyCattle, .takeBack] (.start ranch generator) =
        .ok bought ∧
      bought.play.takeBack = (bought.play, .ok false)) := by
  intro rich bazaar arrived ranch generator
  constructor
  · have stood : ((Session.run Bazaar.service
        [.perform .move, .perform .sellGoods, .extra .releaseCurrent] (.start bazaar generator) :
          Except Fault (Session Bazaar.State Bazaar.Action Bazaar.Rejection Bazaar.Request)).map
        fun sold => sold.held.map fun moment => moment.call.game) = .ok [arrived, bazaar] := by
      cbv
    obtain ⟨sold, ran, games⟩ := map_eq_ok.mp stood
    have undo := undo_exact.2 bazaar generator _ sold ran
    obtain ⟨sale, older, listed, sale_stood, games⟩ := List.map_eq_cons_iff.mp games
    obtain ⟨move, none, rfl, move_stood, games⟩ := List.map_eq_cons_iff.mp games
    obtain rfl := List.map_eq_nil_iff.mp games
    obtain ⟨start, _, back, first, _⟩ := undo.replays [sale] move [] listed
    have latest : sold.play.takeBack.1.game = arrived := by
      rw [undo.restores _ _ listed]
      exact sale_stood
    exact ⟨sold, start, ran, latest, back, first.trans move_stood⟩
  · have emptied : ((Session.run noService [.perform .buyCattle, .takeBack] (.start ranch generator) :
          Except Fault (Session Trail.State Trail.Action Trail.Rejection Empty)).map
        fun bought => bought.held.length) = .ok 0 := by
      cbv
    obtain ⟨bought, ran, empty⟩ := map_eq_ok.mp emptied
    have undo := undo_exact.1 ranch generator _ bought ran
    exact ⟨bought, ran, undo.refuses.mpr (List.length_eq_zero_iff.mp empty)⟩

end TurnObligations
