import BlockShuffle.Error
import BlockShuffle.Layout

/-!
# Settings

What a reader of one partition and a writer of one shard are told. A reader's settings are checked
before anything is read; of two faults the first in the order of `ReadConfig.check` is reported.

Limits are settings of how a partition is read and not of what is read: `entryLimit` and `byteLimit`
decide how many index entries are fetched at once and where a ranged read ends, and that the blocks
delivered do not depend on them is a theorem about reading. They are refused when zero, since
nothing would ever be read, and have no upper bound.

What is not checked is left to whom it concerns. The application's name is taken as it is and
becomes a component of a path. A root that does not exist is not refused either; opening finds no
directory there and goes on to the next. `WriteConfig` has no check, because all it says is where
the files go; a shard's name, which comes with each writer and not with the settings, is checked
when the writer is made.
-/

set_option autoImplicit false

namespace BlockShuffle

/-- Settings for reading one partition. -/
structure ReadConfig where
  /-- Storage roots. Every root that has the partition's directory contributes its shards; those after
  the first are replicas. -/
  basePaths : List Path := [Path.ofText "./shuffle_data"]
  app : String := ""
  shuffle : UInt32 := 0
  /-- The partition to read. -/
  partition : UInt32 := 0
  /-- Partitions that share a directory. -/
  partitionsPerRange : UInt32 := 1
  /-- Partitions of the shuffle. -/
  partitionCount : UInt32 := 1
  /-- Index entries read, and planned for, at a time. -/
  entryLimit : Nat := 1000
  /-- Payload bytes at which a ranged read is closed. -/
  byteLimit : Nat := 32 * 1024 * 1024
  retry : RetryPolicy := {}

namespace ReadConfig

/-- Refuse settings that make reading meaningless. -/
def check (config : ReadConfig) : Except ConfigFault Unit :=
  if config.basePaths.isEmpty then .error .noBasePath
  else if config.partitionsPerRange = 0 then .error .noPartitionsPerRange
  else if config.partitionCount ≤ config.partition then
    .error (.noSuchPartition config.partition config.partitionCount)
  else if config.entryLimit = 0 then .error .noEntryLimit
  else if config.byteLimit = 0 then .error .noByteLimit
  else .ok ()

/-- The range whose directory holds the partition. -/
def range (config : ReadConfig) : PartitionRange :=
  PartitionRange.forPartition config.partition config.partitionsPerRange

/-- The layout under each storage root. -/
def layouts (config : ReadConfig) : List Layout :=
  config.basePaths.map fun base => ⟨base, config.app, config.shuffle⟩

/-- The partition's directory under each storage root. -/
def partitionDirs (config : ReadConfig) : List Path :=
  config.layouts.map fun layout => layout.partitionDir config.range

end ReadConfig

/-- How far a writer pushes each batch. -/
inductive SyncStrategy where
  /-- Data and index are durable before a batch counts as written. -/
  | everyBatch
  /-- Data and index are handed to the storage, which decides when they are durable. -/
  | osBuffered
deriving DecidableEq, Repr

/-- Settings for writing one shard. -/
structure WriteConfig where
  base : Path := Path.ofText "./shuffle_data"
  app : String := ""
  shuffle : UInt32 := 0
  sync : SyncStrategy := .everyBatch

/-- The layout that a writer's files are in. -/
def WriteConfig.layout (config : WriteConfig) : Layout :=
  ⟨config.base, config.app, config.shuffle⟩

end BlockShuffle
