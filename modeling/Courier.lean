import Courier.Broker.Delivery
import Courier.Broker.Describe
import Courier.Broker.Dispatch
import Courier.Broker.Expiry
import Courier.Broker.Flush
import Courier.Broker.Pipeline
import Courier.Broker.State
import Courier.Destination
import Courier.Dict
import Courier.Document
import Courier.Failure
import Courier.Health
import Courier.Lists
import Courier.Message
import Courier.Node
import Courier.Outbound
import Courier.Proofs.Abreast
import Courier.Proofs.Acknowledging
import Courier.Proofs.Attribution
import Courier.Proofs.Bursting
import Courier.Proofs.Calls
import Courier.Proofs.Consuming
import Courier.Proofs.Convergence
import Courier.Proofs.Custody
import Courier.Proofs.Cycles
import Courier.Proofs.Deadlines
import Courier.Proofs.Deletions
import Courier.Proofs.Dispatching
import Courier.Proofs.Distinct
import Courier.Proofs.Draining
import Courier.Proofs.EventLog
import Courier.Proofs.Exclusive
import Courier.Proofs.FailedBatches
import Courier.Proofs.Failing
import Courier.Proofs.FlowControl
import Courier.Proofs.Frame
import Courier.Proofs.GateChecks
import Courier.Proofs.Handling
import Courier.Proofs.HeldCopies
import Courier.Proofs.Histories
import Courier.Proofs.InStep
import Courier.Proofs.Isolation
import Courier.Proofs.Itinerary
import Courier.Proofs.Keyed
import Courier.Proofs.Ledger
import Courier.Proofs.Life
import Courier.Proofs.Listing
import Courier.Proofs.LossFree
import Courier.Proofs.Moves
import Courier.Proofs.Numerals
import Courier.Proofs.Passes
import Courier.Proofs.Permanence
import Courier.Proofs.Placement
import Courier.Proofs.Precedence
import Courier.Proofs.PuttingBack
import Courier.Proofs.QueueProgress
import Courier.Proofs.QueueVeto
import Courier.Proofs.Reconciled
import Courier.Proofs.Recoverable
import Courier.Proofs.Redelivery
import Courier.Proofs.Rehearsed
import Courier.Proofs.Replays
import Courier.Proofs.Reporting
import Courier.Proofs.Reservations
import Courier.Proofs.Resumption
import Courier.Proofs.Returning
import Courier.Proofs.Roster
import Courier.Proofs.Run
import Courier.Proofs.Scanning
import Courier.Proofs.Settlement
import Courier.Proofs.Shares
import Courier.Proofs.SingleFlight
import Courier.Proofs.SlotAccount
import Courier.Proofs.SlotLedger
import Courier.Proofs.Sound
import Courier.Proofs.Standing
import Courier.Proofs.Still
import Courier.Proofs.Survival
import Courier.Proofs.Tallies
import Courier.Proofs.Timeless
import Courier.Proofs.TopicOnce
import Courier.Proofs.Touch
import Courier.Proofs.Transcript
import Courier.Proofs.Turns
import Courier.Proofs.Unheard
import Courier.Proofs.Verdict
import Courier.Proofs.Withdrawn
import Courier.Proofs.Workers
import Courier.Recovery.Pass
import Courier.Recovery.Rehearsal
import Courier.Recovery.Script
import Courier.Recovery.Task
import Courier.Registry
import Courier.Schedule
import Courier.Settings.Basic
import Courier.Settings.File
import Courier.Settings.Load
import Courier.Strategy
import Courier.Subscription
import Courier.Table
import Courier.Tally
import Courier.Text.Blank
import Courier.Text.Code
import Courier.Text.Number
import Courier.Text.Order
import Courier.Text.Shown
import Courier.Toml
import Courier.Topology.Delta
import Courier.Topology.LiveView
import Courier.Topology.Record
import Courier.Topology.Stored
import Courier.Tracker
import Courier.Yaml.Anchor
import Courier.Yaml.Collection
import Courier.Yaml.Reading
import Courier.Yaml.Scalar
import Courier.Yaml.Tag
import Courier.Yaml.Written
