import SlotIndex.Backfill.Handover
import SlotIndex.Backfill.Messages
import SlotIndex.Backfill.Range
import SlotIndex.Backfill.Run
import SlotIndex.Backfill.Schedule
import SlotIndex.Backfill.Selection
import SlotIndex.Backfill.Target
import SlotIndex.Cli
import SlotIndex.Config.Chain
import SlotIndex.Config.Contract
import SlotIndex.Config.Failure
import SlotIndex.Config.FileTree
import SlotIndex.Config.Path
import SlotIndex.Connection
import SlotIndex.Connection.IpAddress
import SlotIndex.Connection.Servers
import SlotIndex.Decoder
import SlotIndex.Delivery
import SlotIndex.Diff
import SlotIndex.Diff.Payload
import SlotIndex.Diff.Row
import SlotIndex.Diff.StateDiff
import SlotIndex.Environment
import SlotIndex.Environment.Assignments
import SlotIndex.Error
import SlotIndex.Feed.Extraction
import SlotIndex.Feed.Subscription
import SlotIndex.Feed.Tail
import SlotIndex.Json
import SlotIndex.Json.ByteList
import SlotIndex.Json.Fields
import SlotIndex.Json.Magnitude
import SlotIndex.Json.Parse
import SlotIndex.Keccak
import SlotIndex.Launch
import SlotIndex.Layout
import SlotIndex.Layout.Read
import SlotIndex.Main
import SlotIndex.NodeSettings
import SlotIndex.Poller
import SlotIndex.Proofs.Attempts
import SlotIndex.Proofs.Backfill.Accounting
import SlotIndex.Proofs.Backfill.Attribution
import SlotIndex.Proofs.Backfill.Capacity
import SlotIndex.Proofs.Backfill.Choice
import SlotIndex.Proofs.Backfill.Contribution
import SlotIndex.Proofs.Backfill.Events
import SlotIndex.Proofs.Backfill.InTurn
import SlotIndex.Proofs.Backfill.Independence
import SlotIndex.Proofs.Backfill.Partition
import SlotIndex.Proofs.Backfill.ReportedKeys
import SlotIndex.Proofs.Backfill.Reporting
import SlotIndex.Proofs.Backfill.Restriction
import SlotIndex.Proofs.Backfill.Sequence
import SlotIndex.Proofs.Backfill.Supervision
import SlotIndex.Proofs.Backfill.Tiling
import SlotIndex.Proofs.Backfill.Undisturbed
import SlotIndex.Proofs.Cli.Arguments
import SlotIndex.Proofs.Cli.RoundTrip
import SlotIndex.Proofs.Config.Contracts
import SlotIndex.Proofs.Decoder.Execution
import SlotIndex.Proofs.Diff.Acceptance
import SlotIndex.Proofs.Diff.Delimited
import SlotIndex.Proofs.Diff.Entries
import SlotIndex.Proofs.Diff.PayloadText
import SlotIndex.Proofs.Diff.Progress
import SlotIndex.Proofs.Diff.RoundTrip
import SlotIndex.Proofs.Diff.Sources
import SlotIndex.Proofs.Diff.Spelling
import SlotIndex.Proofs.Fallible
import SlotIndex.Proofs.Feed.Agreement
import SlotIndex.Proofs.Feed.Channels
import SlotIndex.Proofs.Feed.Deserted
import SlotIndex.Proofs.Feed.Following
import SlotIndex.Proofs.Feed.Storing
import SlotIndex.Proofs.FirstOccurrences
import SlotIndex.Proofs.Interruption
import SlotIndex.Proofs.Layout.KeyTable
import SlotIndex.Proofs.Layout.Locations
import SlotIndex.Proofs.Layout.Startup
import SlotIndex.Proofs.Poller.Cursor
import SlotIndex.Proofs.Poller.History
import SlotIndex.Proofs.Poller.Moves
import SlotIndex.Proofs.Poller.Relay
import SlotIndex.Proofs.Poller.Tracking
import SlotIndex.Proofs.Rlp.Codec
import SlotIndex.Proofs.Rlp.Progress
import SlotIndex.Proofs.Rlp.Run
import SlotIndex.Proofs.Rlp.Truncation
import SlotIndex.Proofs.Slot.Aliases
import SlotIndex.Proofs.Slot.Arithmetic
import SlotIndex.Proofs.Slot.Collisions
import SlotIndex.Proofs.Slot.Construction
import SlotIndex.Proofs.Slot.Declared
import SlotIndex.Proofs.Slot.History
import SlotIndex.Proofs.Slot.Members
import SlotIndex.Proofs.Slot.ReadBack
import SlotIndex.Proofs.Sql.Heights
import SlotIndex.Proofs.Sql.Placeholders
import SlotIndex.Proofs.Sql.StoredRows
import SlotIndex.Proofs.Text.Utf8
import SlotIndex.Proofs.ValueLoading
import SlotIndex.Proofs.Watch.Record
import SlotIndex.Proofs.Watch.Resolution
import SlotIndex.Proofs.Watch.Retention
import SlotIndex.Proofs.Watch.Retries
import SlotIndex.Proofs.Watch.Serving
import SlotIndex.Proofs.Word.Addresses
import SlotIndex.Proofs.Word.Checksum
import SlotIndex.Proofs.Word.Decimal
import SlotIndex.Proofs.Word.Reading
import SlotIndex.Report.Configuration
import SlotIndex.Report.Diffs
import SlotIndex.Report.Errors
import SlotIndex.Retry
import SlotIndex.RetryQueue
import SlotIndex.Rlp
import SlotIndex.Slot.Decode
import SlotIndex.Slot.Location
import SlotIndex.Slot.Lookup
import SlotIndex.Slot.Metadata
import SlotIndex.Slot.ValueType
import SlotIndex.Sql
import SlotIndex.Sql.ValueRows
import SlotIndex.Table
import SlotIndex.Text.Alphanumeric
import SlotIndex.Text.Blank
import SlotIndex.Text.CodeClass
import SlotIndex.Text.Decimal
import SlotIndex.Text.Hex
import SlotIndex.Text.Latin
import SlotIndex.Text.Percent
import SlotIndex.Text.Quoted
import SlotIndex.Text.Unprintable
import SlotIndex.Text.Utf8
import SlotIndex.ValueLoad
import SlotIndex.Watch.Registry
import SlotIndex.Watch.Watcher
import SlotIndex.Word
import SlotIndex.Word.BigEndian
import SlotIndex.Word.Text
