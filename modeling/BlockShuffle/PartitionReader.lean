import BlockShuffle.ShardReader

/-!
# Reading a partition

The shards of a partition range, over every storage root, are one sequence of reads: those of the
first shard, then those of the second, and so on. Reads are asked for by their number in that
sequence, and the reader only moves forward. Shards it has passed are closed and are not gone back
to.

The order is the one in which the directories are listed, root by root, so it is fixed when the
partition is opened. A shard whose index appears later is not found until the partition is opened
anew, and one that grew is read as far as its index reached when it was opened. A missing directory,
an index without a data file and an index that cannot be planned are all left out, and no error says
so; whether anything was lost by it is a question only somebody who knows what to expect can answer,
and the reader does not know.

`read` returns the reader beside the answer, also with an error: passing a shard and opening a data
file are effects that a failed read keeps. That is what makes it possible to ask again. The number
of the first read of the current shard is kept as a field rather than added up from the shards that
were passed; that the two are the same in every reader that was opened and used is proved in
`Proofs/Reading/Numbered`, together with what a read at each number answers.
-/

set_option autoImplicit false

namespace BlockShuffle

open Storage

/-- The reader of all shards of a partition range. -/
structure PartitionReader where
  /-- Shards that were read to their end. -/
  passed : List ShardReader := []
  /-- The shard being read, and those behind it. -/
  ahead : List ShardReader := []
  /-- The number of the first read of the shard being read. -/
  base : Nat := 0

namespace PartitionReader

/-! ## Opening -/

/-- A reader of open shards, in this order. -/
def ofShards (shards : List ShardReader) : PartitionReader := { ahead := shards }

/-- Open the shards whose index files are among these paths; those that are not there are left out. -/
def openListed (config : ReadConfig) : List Path → Program (Except Error (List ShardReader))
  | [] => return .ok []
  | path :: rest =>
    match ShardFiles.ofIndex? path with
    | none => openListed config rest
    | some files => do
      match ← ShardReader.open files config.entryLimit config.byteLimit config.retry with
      | .error error => return .error error
      | .ok shard =>
        let others ← openListed config rest
        return others.map (shard.toList ++ ·)

/-- Open the shards of these directories. One that does not exist holds none. -/
def openDirs (config : ReadConfig) : List Path → Program (Except Error (List ShardReader))
  | [] => return .ok []
  | dir :: rest => do
    match ← retried config.retry (Program.list dir) with
    | .error error =>
      if error.isNotFound then openDirs config rest
      else return .error (error.toError s!"list {dir.text}")
    | .ok listing =>
      match ← openListed config listing with
      | .error error => return .error error
      | .ok shards =>
        let others ← openDirs config rest
        return others.map (shards ++ ·)

/-- Find and open every shard of the partition that the settings name. -/
def «open» (config : ReadConfig) : Program (Except Error PartitionReader) :=
  match config.check with
  | .error fault => return .error (.config fault)
  | .ok () => do return (← openDirs config config.partitionDirs).map ofShards

/-! ## State -/

/-- Every shard, in reading order. -/
def shards (reader : PartitionReader) : List ShardReader := reader.passed ++ reader.ahead

/-- How many shards were passed. -/
def shardIndex (reader : PartitionReader) : Nat := reader.passed.length

/-- How many reads each shard takes. -/
def readCounts (reader : PartitionReader) : List Nat := reader.shards.map ShardReader.readCount

/-- How many reads the partition takes. -/
def readCount (reader : PartitionReader) : Nat := reader.readCounts.foldr (· + ·) 0

/-! ## Reading -/

/-- Pass shards until the one that has this read, and make the read. -/
def advance (index : Nat) (passed : List ShardReader) (base : Nat) :
    List ShardReader → Program (Except Error (Option Batch) × PartitionReader)
  | [] => return (.ok none, ⟨passed, [], base⟩)
  | shard :: rest =>
    if index - base < shard.readCount then do
      let (outcome, shard) ← shard.read (index - base)
      return (outcome, ⟨passed, shard :: rest, base⟩)
    else advance index (passed ++ [shard.close]) (base + shard.readCount) rest

/-- Make a read; none past the last of them. A read of a shard that was passed is refused. -/
def read (reader : PartitionReader) (index : Nat) :
    Program (Except Error (Option Batch) × PartitionReader) :=
  if index < reader.base then
    return (.error (.segmentOutOfOrder index reader.base), reader)
  else advance index reader.passed reader.base reader.ahead

/-- Let go of every data file. -/
def close (reader : PartitionReader) : PartitionReader :=
  { reader with
    passed := reader.passed.map ShardReader.close
    ahead := reader.ahead.map ShardReader.close }

end PartitionReader

end BlockShuffle
