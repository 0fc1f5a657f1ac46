import LogShipper.Text.Blank
import LogShipper.Text.Lines
import LogShipper.Text.Quoted
import LogShipper.Decimal.Reading
import LogShipper.Decimal.Shortest
import LogShipper.Json.Reading
import LogShipper.Url.Address
import LogShipper.Failure
import LogShipper.Log
import LogShipper.LogFilter.Basic
import LogShipper.Config.Layering
import LogShipper.Cancel.Forest
import LogShipper.Delivery.Engine
import LogShipper.Pool.State
import LogShipper.Store.Scripted
import LogShipper.Store.Tape
import LogShipper.World.Time
import LogShipper.Appender
import LogShipper.Layer
import LogShipper.Resp.Link
import LogShipper.Pump
import LogShipper.CommandLine.Session
import LogShipper.Rehearsal.Appender
import LogShipper.Rehearsal.Engine
import LogShipper.Rehearsal.Pool
import LogShipper.Main
import LogShipper.Proofs.Delivery.Exchanges
import LogShipper.Proofs.Delivery.Tries
import LogShipper.Proofs.Delivery.Turns
import LogShipper.Proofs.Cancel.Kin
import LogShipper.Proofs.Cancel.Lineage
import LogShipper.Proofs.Delivery.Truth
import LogShipper.Proofs.Delivery.Ledger
import LogShipper.Proofs.Delivery.Sending
import LogShipper.Proofs.Pool.Census
import LogShipper.Proofs.World.Passing
import LogShipper.Proofs.Cancel.Reach
import LogShipper.Proofs.World.Custody
import LogShipper.Proofs.World.Moments
import LogShipper.Proofs.Pool.Traffic
import LogShipper.Proofs.Url.Escapes
import LogShipper.Proofs.World.Lifecycle
import LogShipper.Proofs.Delivery.Batches
import LogShipper.Proofs.Store.Obliging
import LogShipper.Proofs.World.Gist
import LogShipper.Proofs.World.Prompt
import LogShipper.Proofs.World.Borrowing
import LogShipper.Proofs.World.Agreement
import LogShipper.Proofs.World.Appending
import LogShipper.Proofs.Pool.Tenancy
import LogShipper.Proofs.Pool.Lateness
import LogShipper.Proofs.Delivery.Announcements
import LogShipper.Proofs.Delivery.Appending
import LogShipper.Proofs.Delivery.Plans
import LogShipper.Proofs.World.Independence
import LogShipper.Proofs.World.Cancellation
import LogShipper.Proofs.Resp.Verdicts
import LogShipper.Proofs.Url.Hosts
import LogShipper.Proofs.Url.Reading
import LogShipper.Proofs.Text.Digits
import LogShipper.Proofs.Json.Lexing
import LogShipper.Proofs.Json.Parsing
import LogShipper.Proofs.Json.Compact
import LogShipper.Proofs.Json.Records
import LogShipper.Proofs.Json.Decoding
import LogShipper.Proofs.Config.Spellings
import LogShipper.Proofs.Delivery.Mirrors
import LogShipper.Proofs.World.Twins
import LogShipper.Proofs.World.Callers
import LogShipper.Proofs.World.Payloads
import LogShipper.Proofs.Delivery.Passwords
import LogShipper.Proofs.World.Passwords
import LogShipper.Proofs.Text.Lines
import LogShipper.Proofs.Config.Layers
import LogShipper.Proofs.CommandLine.Handovers
import LogShipper.Proofs.CommandLine.Sessions
import LogShipper.Proofs.Delivery.Acceptance
import LogShipper.Proofs.Store.Lists
import LogShipper.Proofs.World.Senders
import LogShipper.Proofs.World.Unmixed
import LogShipper.Proofs.Config.Rules
import LogShipper.Proofs.Config.Overrides
import LogShipper.Proofs.Config.Connecting
import LogShipper.Proofs.Json.Values
import LogShipper.Proofs.Layout.Entries
import LogShipper.Proofs.Layer.Feedback
import LogShipper.Proofs.Cancel.Confinement
import LogShipper.Proofs.Cancel.Crowd
import LogShipper.Proofs.Pool.Finality
import LogShipper.Proofs.Delivery.Rounds
import LogShipper.Proofs.Pool.Eviction
import LogShipper.Proofs.World.Sleeping
import LogShipper.Proofs.Pool.Waking
import LogShipper.Proofs.Pool.Floor
import LogShipper.Proofs.Pool.Sparing
import LogShipper.Proofs.Delivery.Tenures
import LogShipper.Proofs.Pool.Reuse
import LogShipper.Proofs.World.Reuse
import LogShipper.Proofs.Retry.Delays
import LogShipper.Proofs.Text.Trimming
import LogShipper.Proofs.Destination.Keys
import LogShipper.Proofs.Record.Messages
