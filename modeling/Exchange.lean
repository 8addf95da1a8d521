import Exchange.Basic
import Exchange.Text.WhiteSpace
import Exchange.Text.Printable
import Exchange.Text.Alphanumeric
import Exchange.Wire.Record
import Exchange.Wire.Codec
import Exchange.Wire.Lemmas
import Exchange.Wire.Hex
import Exchange.Fault
import Exchange.Pool
import Exchange.Ring
import Exchange.Book.Basic
import Exchange.Book.Matching
import Exchange.Book.Linked
import Exchange.Digest.SipHash
import Exchange.Book.Digest
import Exchange.Engine
import Exchange.Feed.Consumer
import Exchange.Feed.SnapshotBook
import Exchange.Feed.Publisher
import Exchange.Feed.Session
import Exchange.Feed.Recorded
import Exchange.Number.Shortest
import Exchange.Number.Nearest
import Exchange.Number.Integer
import Exchange.LogFilter.Pattern
import Exchange.LogFilter.Directive
import Exchange.Config.Error
import Exchange.Config.Toml.Scalar
import Exchange.Config.Toml.Document
import Exchange.Net.Address
import Exchange.Net.Feed
import Exchange.Config.Settings
import Exchange.Config.Logging
import Exchange.Number.Decimal
import Exchange.Replay.Timestamp
import Exchange.Replay.Csv
import Exchange.Replay.Rows
import Exchange.Replay.Arguments
import Exchange.Replay.Program
import Exchange.Trading.Risk
import Exchange.Trading.OrderManager
import Exchange.Main
import Exchange.Proofs.Pool
import Exchange.Proofs.Pool.Calls
import Exchange.Proofs.Book.Invariant
import Exchange.Proofs.Book.Reference
import Exchange.Proofs.Book.Refinement
import Exchange.Proofs.Book.Uncrossed
import Exchange.Proofs.Ring
import Exchange.Proofs.Feed.Recovery
import Exchange.Proofs.Feed.ClientBook
import Exchange.Proofs.Feed.Snapshot
import Exchange.Proofs.Feed.Cycle
import Exchange.Proofs.Feed.Stream
import Exchange.Proofs.Feed.Rebuild
import Exchange.Proofs.Trading.InFlight
import Exchange.Proofs.Engine.Sinks
import Exchange.Proofs.Book.Answers
import Exchange.Proofs.Book.Ledger
import Exchange.Proofs.Book.Fills
import Exchange.Proofs.Trading.Protocol
import Exchange.Proofs.Feed.Listing
import Exchange.Proofs.Feed.Records
import Exchange.Proofs.Feed.Mirror
import Exchange.Proofs.Feed.Handover
import Exchange.Proofs.Book.Arithmetic
import Exchange.Proofs.Wire.Layout
import Exchange.Proofs.Wire.Refusal
import Exchange.Proofs.Feed.Ingest
import Exchange.Proofs.Feed.Loop
import Exchange.Proofs.Feed.Subscription
import Exchange.Proofs.Number.Quotient
import Exchange.Proofs.Replay.Ticks
import Exchange.Proofs.Feed.Queued
import Exchange.Proofs.Feed.LiveOrders
import Exchange.Proofs.Book.Crossing
import Exchange.Proofs.Pool.Chain
import Exchange.Proofs.Book.Layout
import Exchange.Proofs.Book.Storage
import Exchange.Proofs.Book.StoredRuns
import Exchange.Proofs.Book.WellLinked
