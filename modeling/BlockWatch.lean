import BlockWatch.Main
import BlockWatch.Rpc.Rehearsal
import BlockWatch.Session
import BlockWatch.Proofs.Buckets
import BlockWatch.Proofs.Quantity
import BlockWatch.Proofs.Cache
import BlockWatch.Proofs.Shift.Actions
import BlockWatch.Proofs.Shift.Moves
import BlockWatch.Proofs.Shift.Resolution
import BlockWatch.Proofs.Shift.Attempt
import BlockWatch.Proofs.Shift.Frame
import BlockWatch.Proofs.Shift.Resolved
import BlockWatch.Proofs.Shift.Strides
import BlockWatch.Proofs.Session.Run
import BlockWatch.Proofs.Session.Delivery
import BlockWatch.Proofs.Candidate
import BlockWatch.Proofs.Session.Progress
import BlockWatch.Proofs.Shift.Head
import BlockWatch.Proofs.Shift.Soundness
import BlockWatch.Proofs.Session.Soundness
import BlockWatch.Proofs.Session.Retry
import BlockWatch.Proofs.Shift.Inquiry
import BlockWatch.Proofs.Counter
import BlockWatch.Proofs.Session.Counting
import BlockWatch.Proofs.Shift.Ledger
import BlockWatch.Proofs.Shift.Solo
import BlockWatch.Proofs.Session.Sharing
import BlockWatch.Proofs.Stranded
import BlockWatch.Proofs.Shift.Failures
import BlockWatch.Proofs.Session.Stranding
import BlockWatch.Proofs.Shift.Subscriptions
import BlockWatch.Proofs.Session.Subscriptions
import BlockWatch.Proofs.Shift.Phases
import BlockWatch.Proofs.Shift.Polling
import BlockWatch.Proofs.Shift.Likeness
import BlockWatch.Proofs.Shift.Echo
import BlockWatch.Proofs.Session.Closing
import BlockWatch.Proofs.Session.Polling
import BlockWatch.Proofs.Shift.Launches
import BlockWatch.Proofs.Shift.Schedule
import BlockWatch.Proofs.Shift.Gains
import BlockWatch.Proofs.Shift.Requests
import BlockWatch.Proofs.Session.Thrift
import BlockWatch.Proofs.Shift.Ticks
import BlockWatch.Proofs.Session.CatchingUp
import BlockWatch.Proofs.Shift.Hush
import BlockWatch.Proofs.Shift.Abreast
import BlockWatch.Proofs.Session.Hush
import BlockWatch.Proofs.Rpc.Conversation
import BlockWatch.Proofs.Json.Members
import BlockWatch.Proofs.Cache.History
import BlockWatch.Proofs.Cache.Memory
import BlockWatch.Proofs.Text.Bytes
import BlockWatch.Proofs.Text.Lines
import BlockWatch.Proofs.Roster
import BlockWatch.Proofs.Address
import BlockWatch.Proofs.Watchlist
import BlockWatch.Proofs.Hex
import BlockWatch.Proofs.Quantity.Grammar
import BlockWatch.Proofs.Payload
import BlockWatch.Proofs.Launch
import BlockWatch.Proofs.Address.Spelling
import BlockWatch.Proofs.Launch.Rounds
