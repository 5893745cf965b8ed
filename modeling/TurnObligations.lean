import TurnObligations.Fault
import TurnObligations.Counter
import TurnObligations.Obligation.Basic
import TurnObligations.Obligation.Query
import TurnObligations.Obligation.Resolve
import TurnObligations.Obligation.Valid
import TurnObligations.Obligation.Build
import TurnObligations.Text.Bytes
import TurnObligations.Json.Render
import TurnObligations.Json.Mismatch
import TurnObligations.Json.Scan
import TurnObligations.Json.Parse
import TurnObligations.Storage.Datum
import TurnObligations.Storage.Read
import TurnObligations.Storage.Text
import TurnObligations.Storage.Value
import TurnObligations.Storage.Bytes
import TurnObligations.Storage.Save
import TurnObligations.Obligation.Storage
import TurnObligations.Container
import TurnObligations.Stack.Storage
import TurnObligations.Queue.Storage
import TurnObligations.Seat
import TurnObligations.Cards
import TurnObligations.Random.Generator
import TurnObligations.Turn.Game
import TurnObligations.Turn.Driver
import TurnObligations.Trail.State
import TurnObligations.Trail.Game
import TurnObligations.Bazaar.State
import TurnObligations.Bazaar.Game
import TurnObligations.Scripted.Game
import TurnObligations.Proofs.Answer
import TurnObligations.Proofs.Run
import TurnObligations.Proofs.Obligation.Valid
import TurnObligations.Proofs.Obligation.Accept
import TurnObligations.Proofs.Obligation.Resolve
import TurnObligations.Proofs.Obligation.Skip
import TurnObligations.Proofs.Obligation.Run
import TurnObligations.Proofs.Container
import TurnObligations.Proofs.Stack
import TurnObligations.Proofs.Queue.Valid
import TurnObligations.Proofs.Queue.Perform
import TurnObligations.Proofs.Queue.Run
import TurnObligations.Proofs.Queue.Ledger
import TurnObligations.Proofs.Queue.Deeds
import TurnObligations.Proofs.Queue.Chronicle
import TurnObligations.Proofs.Lockstep
import TurnObligations.Proofs.Invariant
import TurnObligations.Proofs.Obligation.Progress
import TurnObligations.Proofs.Obligation.Closing
import TurnObligations.Proofs.Obligation.Built
import TurnObligations.Proofs.Obligation.Budget
import TurnObligations.Proofs.Obligation.Termination
import TurnObligations.Proofs.Json.Scan
import TurnObligations.Proofs.Storage.Conforms
import TurnObligations.Proofs.Storage.Value
import TurnObligations.Proofs.Storage.Written
import TurnObligations.Proofs.Storage.Text
import TurnObligations.Proofs.Storage.Lawful
import TurnObligations.Proofs.Obligation.Storage
import TurnObligations.Proofs.Storage.RoundTrip
import TurnObligations.Proofs.Deadlock
import TurnObligations.Proofs.Obligation.Produced
import TurnObligations.Proofs.Storage.Bytes
import TurnObligations.Proofs.Seat
import TurnObligations.Proofs.Storage.Size
import TurnObligations.Proofs.Track
import TurnObligations.Proofs.Trail.Game
import TurnObligations.Proofs.Bazaar.Game
import TurnObligations.Proofs.Turn.Step
import TurnObligations.Proofs.Turn.Session
import TurnObligations.Proofs.Turn.Undo
import TurnObligations.Proofs.Turn.Protocol
import TurnObligations.Proofs.Turn.Upheld
import TurnObligations.Proofs.Turn.Total
import TurnObligations.Proofs.Turn.Resume
import TurnObligations.Proofs.Trail.Moves
import TurnObligations.Proofs.Trail.Phase
import TurnObligations.Proofs.Trail.Turn
import TurnObligations.Proofs.Trail.Size
import TurnObligations.Proofs.Trail.Safety
import TurnObligations.Proofs.Bazaar.Moves
import TurnObligations.Proofs.Bazaar.Phase
import TurnObligations.Proofs.Bazaar.Turn
import TurnObligations.Proofs.Bazaar.Size
import TurnObligations.Proofs.Bazaar.Winner
import TurnObligations.Proofs.Bazaar.Safety
import TurnObligations.Proofs.Games.Rollback
import TurnObligations.Proofs.Games.Turns
import TurnObligations.Proofs.Games.Progress
import TurnObligations.Proofs.Games.Safety
import TurnObligations.Proofs.Games.Saves
import TurnObligations.Proofs.Draining
import TurnObligations.Proofs.Obligation.Blocks
import TurnObligations.Proofs.Obligation.Repetition
import TurnObligations.Proofs.Obligation.Pairing
import TurnObligations.Proofs.Obligation.Branches
import TurnObligations.Proofs.Obligation.Commitment
import TurnObligations.Proofs.Turn.Effect
import TurnObligations.Proofs.Trail.Cards
import TurnObligations.Proofs.Games.Conservation
import TurnObligations.Proofs.Json.Parse
import TurnObligations.Proofs.Json.Token
import TurnObligations.Proofs.Json.Skip
import TurnObligations.Proofs.Storage.Agreement
import TurnObligations.Proofs.Storage.Order
import TurnObligations.Proofs.Storage.Brackets
import TurnObligations.Proofs.Storage.Readers
import TurnObligations.Proofs.Bazaar.Worth
import TurnObligations.Proofs.Pushing
import TurnObligations.Proofs.Focus
