import BlockShuffle.Main
import BlockShuffle.Proofs.LittleEndian
import BlockShuffle.Proofs.Results
import BlockShuffle.Record.Stream
import BlockShuffle.Storage.Faults
import BlockShuffle.Storage.Memory
import BlockShuffle.TaskAttempt
import BlockShuffle.Proofs.Delivery.Settling
import BlockShuffle.Proofs.Delivery.Calls
import BlockShuffle.Proofs.Delivery.Accounting
import BlockShuffle.Proofs.Delivery.Safety
import BlockShuffle.Proofs.IndexEntry
import BlockShuffle.Proofs.Reading.Plan
import BlockShuffle.Proofs.Storage.Steady
import BlockShuffle.Proofs.Reading.Opening
import BlockShuffle.Proofs.Reading.Feeding
import BlockShuffle.Proofs.Delivery.Reference
import BlockShuffle.Proofs.Delivery.Reading
import BlockShuffle.Proofs.Path
import BlockShuffle.Proofs.Layout
import BlockShuffle.Proofs.Storage.Memory
import BlockShuffle.Proofs.Writing.Backed
import BlockShuffle.Proofs.Storage.Unreliable
import BlockShuffle.Proofs.Writing.Batch
import BlockShuffle.Proofs.Writing.Shard
import BlockShuffle.Proofs.BlockId
import BlockShuffle.Proofs.Writing.Attempts
import BlockShuffle.Proofs.Job.Steps
import BlockShuffle.Proofs.Job.Invariant
import BlockShuffle.Proofs.Reading.Discovery
import BlockShuffle.Proofs.Job.Delivery
import BlockShuffle.Proofs.Storage.Stepwise
import BlockShuffle.Proofs.Storage.Footprint
import BlockShuffle.Proofs.Writing.Session
import BlockShuffle.Proofs.Writing.Interleaving
import BlockShuffle.Proofs.RoundTrip.Leftovers
import BlockShuffle.Proofs.Storage.Shared
import BlockShuffle.Proofs.RoundTrip.Live
import BlockShuffle.Proofs.Storage.Flaky
import BlockShuffle.Proofs.Reading.Resuming
import BlockShuffle.Proofs.Delivery.Resuming
import BlockShuffle.Proofs.Storage.Transient
import BlockShuffle.Proofs.Delivery.Transient
import BlockShuffle.Proofs.Delivery.Completeness
import BlockShuffle.Proofs.Storage.Archive
import BlockShuffle.Proofs.Reading.Finding
import BlockShuffle.Proofs.Delivery.Tuning
import BlockShuffle.Proofs.Cli.Verify
import BlockShuffle.Proofs.Reading.Extras
import BlockShuffle.Proofs.Record.Session
import BlockShuffle.Proofs.Record.Stages
import BlockShuffle.Proofs.Record.Protocol
import BlockShuffle.Proofs.Storage.SortedList
import BlockShuffle.Proofs.Storage.Buffer
import BlockShuffle.Proofs.Storage.Reflection
import BlockShuffle.Proofs.Writing.Backends
import BlockShuffle.Proofs.Reading.Numbered
import BlockShuffle.Proofs.Reading.ExactPlan
import BlockShuffle.Proofs.Storage.Trace
import BlockShuffle.Proofs.Writing.Abandoned
import BlockShuffle.Proofs.Crc32
import BlockShuffle.Proofs.Storage.Damaged
import BlockShuffle.Proofs.Reading.Torn
import BlockShuffle.Proofs.Delivery.Damage
import BlockShuffle.Proofs.Delivery.Corruption
import BlockShuffle.Proofs.Record.Payload
import BlockShuffle.Proofs.Writing.Reports
import BlockShuffle.Proofs.ShardNames
import BlockShuffle.Proofs.PartitionRange
import BlockShuffle.Proofs.Reading.Losses
import BlockShuffle.Proofs.Retry
import BlockShuffle.Proofs.Reading.Chunks
import BlockShuffle.Proofs.Writing.Choosing
import BlockShuffle.Proofs.Reading.Answers
import BlockShuffle.Proofs.Reading.Listed
import BlockShuffle.Proofs.Cli.Recount
