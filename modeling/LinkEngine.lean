import LinkEngine.Connection.CloseReason
import LinkEngine.Connection.Machine
import LinkEngine.Connection.Request
import LinkEngine.Connection.State
import LinkEngine.Connection.Stats
import LinkEngine.Engine.Accepting
import LinkEngine.Engine.Basic
import LinkEngine.Engine.Driving
import LinkEngine.Engine.Hooks
import LinkEngine.Engine.Operating
import LinkEngine.Engine.Polling
import LinkEngine.Engine.Running
import LinkEngine.Engine.Session
import LinkEngine.Engine.Waking
import LinkEngine.Failure
import LinkEngine.Json.Reader
import LinkEngine.Json.Value
import LinkEngine.Link.Basic
import LinkEngine.Link.Script
import LinkEngine.Multiplexer.Script
import LinkEngine.Multiplexer.Watcher
import LinkEngine.Proofs.Accounts
import LinkEngine.Proofs.Afoot
import LinkEngine.Proofs.Alternation
import LinkEngine.Proofs.Arming
import LinkEngine.Proofs.Arrivals
import LinkEngine.Proofs.Audit
import LinkEngine.Proofs.Balance
import LinkEngine.Proofs.Biding
import LinkEngine.Proofs.Bindings
import LinkEngine.Proofs.Blame
import LinkEngine.Proofs.Bytes
import LinkEngine.Proofs.Calls
import LinkEngine.Proofs.Choices
import LinkEngine.Proofs.Closes
import LinkEngine.Proofs.Closing
import LinkEngine.Proofs.Count
import LinkEngine.Proofs.Course
import LinkEngine.Proofs.Currency
import LinkEngine.Proofs.Cycles
import LinkEngine.Proofs.Deadlines
import LinkEngine.Proofs.Departure
import LinkEngine.Proofs.Driven
import LinkEngine.Proofs.Episodes
import LinkEngine.Proofs.Exchanges
import LinkEngine.Proofs.Exhaustion
import LinkEngine.Proofs.Firing
import LinkEngine.Proofs.Flow
import LinkEngine.Proofs.Flushing
import LinkEngine.Proofs.Frame
import LinkEngine.Proofs.Grammar
import LinkEngine.Proofs.Growth
import LinkEngine.Proofs.Heaps
import LinkEngine.Proofs.Heeding
import LinkEngine.Proofs.HoldUp
import LinkEngine.Proofs.Hooks
import LinkEngine.Proofs.Indifference
import LinkEngine.Proofs.Input
import LinkEngine.Proofs.Keeping
import LinkEngine.Proofs.Leaving
import LinkEngine.Proofs.Ledger
import LinkEngine.Proofs.Loading
import LinkEngine.Proofs.Missed
import LinkEngine.Proofs.Moves
import LinkEngine.Proofs.Nesting
import LinkEngine.Proofs.Order
import LinkEngine.Proofs.Output
import LinkEngine.Proofs.Outside
import LinkEngine.Proofs.Ownership
import LinkEngine.Proofs.Patience
import LinkEngine.Proofs.Permits
import LinkEngine.Proofs.Plan
import LinkEngine.Proofs.Progress
import LinkEngine.Proofs.Punctuality
import LinkEngine.Proofs.Queue
import LinkEngine.Proofs.Raising
import LinkEngine.Proofs.Readiness
import LinkEngine.Proofs.Recycling
import LinkEngine.Proofs.Registrations
import LinkEngine.Proofs.Requests
import LinkEngine.Proofs.Runs
import LinkEngine.Proofs.Sampling
import LinkEngine.Proofs.Serving
import LinkEngine.Proofs.Sessions
import LinkEngine.Proofs.Settled
import LinkEngine.Proofs.Shutdown
import LinkEngine.Proofs.Sift
import LinkEngine.Proofs.Sole
import LinkEngine.Proofs.Spells
import LinkEngine.Proofs.Stand
import LinkEngine.Proofs.Standing
import LinkEngine.Proofs.Suspension
import LinkEngine.Proofs.Tallies
import LinkEngine.Proofs.Teardown
import LinkEngine.Proofs.Timers
import LinkEngine.Proofs.Traffic
import LinkEngine.Proofs.TwoWay
import LinkEngine.Proofs.Unkept
import LinkEngine.Proofs.Urgency
import LinkEngine.Proofs.Validation
import LinkEngine.Proofs.Vigilance
import LinkEngine.Proofs.Waits
import LinkEngine.Proofs.Wakes
import LinkEngine.Proofs.Watchers
import LinkEngine.Proofs.Whole
import LinkEngine.Proofs.Work
import LinkEngine.Proofs.Writing
import LinkEngine.Settings.Document
import LinkEngine.Settings.Environment
import LinkEngine.Settings.Fault
import LinkEngine.Settings.Log
import LinkEngine.Settings.Sections
import LinkEngine.Shutdown.Signal
import LinkEngine.Shutdown.Tracker
import LinkEngine.Socket.Endpoint
import LinkEngine.Socket.Network
import LinkEngine.Stream.Basic
import LinkEngine.Stream.Buffer
import LinkEngine.Stream.BufferPool
import LinkEngine.Stream.Session
import LinkEngine.Stream.Transfer
import LinkEngine.Text.Blank
import LinkEngine.Text.Hidden
import LinkEngine.Text.Quoted
import LinkEngine.Text.Unsigned
import LinkEngine.Text.Utf8
import LinkEngine.Time.Clock
import LinkEngine.Time.Duration
import LinkEngine.Timer.Heap
import LinkEngine.Timer.Heaps
import LinkEngine.Timer.Rehearsal
import LinkEngine.Timer.Scheduler
import LinkEngine.Timer.Table
import LinkEngine.Timer.Throttle
import LinkEngine.Worker.Pool
