import CriticalSection.Main
import CriticalSection.Coordinator.Session
import CriticalSection.Offset.Script
import CriticalSection.Wire.Connection
import CriticalSection.Proofs.Table
import CriticalSection.Proofs.Order
import CriticalSection.Proofs.Causality
import CriticalSection.Proofs.Coordinator
import CriticalSection.Proofs.Coordinator.Session
import CriticalSection.Proofs.Coordinator.Clocks
import CriticalSection.Proofs.Coordinator.Records
import CriticalSection.Proofs.Coordinator.Barriers
import CriticalSection.Proofs.Coordinator.Rounds
import CriticalSection.Proofs.Cluster
import CriticalSection.Proofs.FanOut
import CriticalSection.Proofs.Attempt
import CriticalSection.Proofs.Mutual
import CriticalSection.Proofs.Exclusion.Party
import CriticalSection.Proofs.Exclusion.Aside
import CriticalSection.Proofs.Exclusion.Deeds
import CriticalSection.Proofs.Exclusion.Turns
import CriticalSection.Proofs.Exclusion.Changes
import CriticalSection.Proofs.Exclusion.Permission
import CriticalSection.Proofs.Exclusion.Effects
import CriticalSection.Proofs.Exclusion.Assembly
import CriticalSection.Proofs.Exclusion.Safety
import CriticalSection.Proofs.Exclusion.Rejoin
import CriticalSection.Proofs.Exclusion.Calm
import CriticalSection.Proofs.Exclusion.Precedence
import CriticalSection.Proofs.Exclusion.Progress
import CriticalSection.Proofs.LineUps.Drill
import CriticalSection.Proofs.LineUps.Moves
import CriticalSection.Proofs.LineUps.Rounds
import CriticalSection.Proofs.Verifier.Pairing
import CriticalSection.Proofs.Verifier.Meetings
import CriticalSection.Proofs.Verifier.Search
import CriticalSection.Proofs.Log.Order
import CriticalSection.Proofs.Log.Place
import CriticalSection.Proofs.Verifier.Verdict
import CriticalSection.Proofs.Log.Occupancy
import CriticalSection.Proofs.Verifier.InTurn
import CriticalSection.Proofs.Verifier.Matching
import CriticalSection.Proofs.Verifier.Ranks
import CriticalSection.Proofs.Verifier.Sides
import CriticalSection.Proofs.Verifier.Ties
import CriticalSection.Proofs.Verifier.MergeOrder
import CriticalSection.Proofs.Verifier.Between
import CriticalSection.Proofs.Verifier.Forgiveness
import CriticalSection.Proofs.Offset.Margin
import CriticalSection.Proofs.Text
import CriticalSection.Proofs.Log.Text
import CriticalSection.Proofs.Files.Tree
import CriticalSection.Proofs.Log.Files
import CriticalSection.Proofs.Round
import CriticalSection.Proofs.Log.Diary
import CriticalSection.Proofs.Exclusion.Chronicle
import CriticalSection.Proofs.Log.Journal
import CriticalSection.Proofs.Exclusion.Journals
import CriticalSection.Proofs.Exclusion.Logged
import CriticalSection.Proofs.Wire.Endpoint
import CriticalSection.Proofs.Wire.Framing
import CriticalSection.Proofs.Wire.Replies
import CriticalSection.Proofs.Coordinator.Placement
import CriticalSection.Proofs.Withdrawal.Cancelled
import CriticalSection.Proofs.Offset.Best
import CriticalSection.Proofs.Offset.Sampling
import CriticalSection.Proofs.Log.Grammar
import CriticalSection.Proofs.Log.RoundTrip
import CriticalSection.Proofs.Log.Merging
import CriticalSection.Proofs.Log.Adjusting
import CriticalSection.Proofs.Decimal.Packing
import CriticalSection.Proofs.Decimal.Rounding
import CriticalSection.Proofs.Verifier.Reference
import CriticalSection.Proofs.Decimal.Whole
import CriticalSection.Proofs.Log.BackAndForth
import CriticalSection.Proofs.Verifier.Leftovers
import CriticalSection.Proofs.Routing.Tables
import CriticalSection.Proofs.Routing.Passes
import CriticalSection.Proofs.Json.Indented
import CriticalSection.Proofs.Decimal.Shortest
import CriticalSection.Proofs.Decimal.Tenths
import CriticalSection.Proofs.Offset.File
