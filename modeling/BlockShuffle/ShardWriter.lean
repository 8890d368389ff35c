import BlockShuffle.Config
import BlockShuffle.Storage.Program

/-!
# Writing a shard

A shard is a sequence of file pairs, numbered from zero. A batch of blocks goes to one pair: the
payloads behind one another into the data file, pushed to the storage, and only then one index entry
for each of them, in one append. An index entry therefore never points at bytes that are not there,
whatever fails and wherever a failure cuts an append short.

A pair whose batch failed is abandoned, and the next batch starts the next pair, so nothing is ever
appended behind a partial write. For the same reason a pair is passed over whose index an earlier
writer left with part of an entry at its end.

Handles move with the value: an operation on a pair answers the pair with its appenders behind it,
so a writer that was used and one that was not cannot be mixed up. A writer that is dropped lets go
of its files without pushing; what they still held back is handed over as far as the storage does
that by itself, and the result is not looked at.

Two decisions are visible here that are not forced by the file format. The search for a pair to
append to looks at the size of the index only, so data that lies behind the last indexed byte is
kept and appended behind, and a data file that is shorter than its index says is not noticed. And a
batch is refused, for a block that declares a wrong length, before any storage call, which is why a
refusal does not cost a pair.
-/

set_option autoImplicit false

namespace BlockShuffle

open Storage

/-- A file pair that is open for appending. -/
structure OpenPair where
  files : ShardFiles
  data : Appender
  index : Appender

/-- The writer of one shard of a partition range. -/
structure ShardWriter where
  layout : Layout
  range : PartitionRange
  shard : String
  strategy : SyncStrategy
  /-- The pair that the next batch goes to. -/
  number : UInt32 := 0
  /-- That pair, once a batch went to it. -/
  pair : Option OpenPair := none
  /-- Blocks of the batches that were written. -/
  blocksWritten : Nat := 0

/-! ## Pairs -/

namespace OpenPair

/-- Let go of both files, data first, so that an index entry is never handed over ahead of the bytes
it points at. -/
def release (pair : OpenPair) : Program Unit := do
  Program.release pair.data
  Program.release pair.index

/-- Make both files durable, data first, and let go of them. -/
def finish (pair : OpenPair) : Program (Except IoError Unit) := do
  let (synced, data) ← Program.sync pair.data
  match synced with
  | .error error =>
    release { pair with data }
    return .error error
  | .ok () =>
    let (synced, index) ← Program.sync pair.index
    release { pair with data, index }
    return synced

/-- Push what was appended as far as the strategy says. -/
def push (strategy : SyncStrategy) (appender : Appender) :
    Program (Except IoError Unit × Appender) :=
  match strategy with
  | .everyBatch => Program.sync appender
  | .osBuffered => Program.flush appender

/-- The index entry of a block whose payload starts at an offset. -/
def entryAt (offset : UInt64) (block : Block) : IndexEntry where
  length := block.length
  uncompressedLength := block.uncompressedLength
  crc := block.crc
  id := block.id
  task := block.task
  offset

/-- Append the payloads of a batch, and say which entries they get; those of the blocks in front of them
are in `done`, the last first. -/
def appendPayloads (data : Appender) (done : List IndexEntry) :
    List Block → Program (Except IoError (List IndexEntry) × Appender)
  | [] => return (.ok done.reverse, data)
  | block :: rest => do
    let entry := entryAt data.position block
    let (appended, data) ← Program.append data block.payload
    match appended with
    | .error error => return (.error error, data)
    | .ok () => appendPayloads data (entry :: done) rest

/-- Append entries to the index and push them. -/
def appendEntries (strategy : SyncStrategy) (index : Appender) (entries : List IndexEntry) :
    Program (Except IoError Unit × Appender) := do
  let (appended, index) ← Program.append index (IndexEntry.encodeAll entries)
  match appended with
  | .error error => return (.error error, index)
  | .ok () => push strategy index

/-- Write a batch: payloads, a push, entries, a push. -/
def writeBatch (strategy : SyncStrategy) (pair : OpenPair) (blocks : List Block) :
    Program (Except IoError Unit × OpenPair) := do
  let (appended, data) ← appendPayloads pair.data [] blocks
  match appended with
  | .error error => return (.error error, { pair with data })
  | .ok entries =>
    let (pushed, data) ← push strategy data
    match pushed with
    | .error error => return (.error error, { pair with data })
    | .ok () =>
      let (written, index) ← appendEntries strategy pair.index entries
      return (written, { pair with data, index })

end OpenPair

/-! ## Writers -/

namespace ShardWriter

/-- Whether a reader can tell a shard of this name by its file names. -/
def isShardName (name : String) : Bool :=
  !name.isEmpty && name.toList.all fun c => c != '.' && c != '/' && c != '\\'

/-- A writer for a shard, which touches no storage yet. -/
def create (config : WriteConfig) (range : PartitionRange) (shard : String) :
    Except ConfigFault ShardWriter :=
  if isShardName shard then
    .ok { layout := config.layout, range, shard, strategy := config.sync }
  else .error (.shardName shard)

/-- The files of one pair of the shard. -/
def filesOf (writer : ShardWriter) (number : UInt32) : ShardFiles :=
  writer.layout.shardFiles writer.range writer.shard number

/-- The pair that the next batch goes to. -/
def currentFiles (writer : ShardWriter) : ShardFiles :=
  match writer.pair with
  | some pair => pair.files
  | none => writer.filesOf writer.number

/-- The failure of a search that has no pair number left. -/
def noNumberLeft (writer : ShardWriter) : IoError :=
  ⟨.storageFull, s!"no file pair is left for shard {writer.shard}"⟩

/-- Open the first pair from `number` on whose index ends with a whole entry; `left` more numbers may
be tried. The number answered is the pair's, or the one at which the search failed. -/
def openPairFrom (writer : ShardWriter) :
    (left : Nat) → (number : UInt32) → Program (Except IoError OpenPair × UInt32)
  | left, number => do
    let files := writer.filesOf number
    match ← Program.openAppend files.index with
    | .error error => return (.error error, number)
    | .ok index =>
      if index.position.toNat % IndexEntry.size = 0 then
        match ← Program.openAppend files.data with
        | .error error =>
          Program.release index
          return (.error error, number)
        | .ok data => return (.ok { files, data, index }, number)
      else
        Program.release index
        match left with
        | 0 => return (.error writer.noNumberLeft, number)
        | left + 1 => writer.openPairFrom left (number + 1)

/-- The open pair, or the next usable one. -/
def openPair (writer : ShardWriter) : Program (Except IoError OpenPair × UInt32) :=
  match writer.pair with
  | some pair => return (.ok pair, writer.number)
  | none => writer.openPairFrom (UInt32.size - 1 - writer.number.toNat) writer.number

/-- Refuse a batch with a block that is not fit to be written; the first such block is the error. -/
def checkBlocks : List Block → Except InvalidBlock Unit
  | [] => .ok ()
  | block :: rest =>
    match block.check with
    | .error fault => .error fault
    | .ok () => checkBlocks rest

/-- Go on to the next pair. -/
def abandonPair (writer : ShardWriter) (number : UInt32) : ShardWriter :=
  { writer with pair := none, number := number + 1 }

/-- Write a batch whose blocks are fit to be written. -/
def writeChecked (writer : ShardWriter) (blocks : List Block) :
    Program (Except IoError Unit × ShardWriter) := do
  let (opened, number) ← writer.openPair
  match opened with
  | .error error => return (.error error, writer.abandonPair number)
  | .ok pair =>
    let (written, pair) ← pair.writeBatch writer.strategy blocks
    match written with
    | .error error =>
      pair.release
      return (.error error, writer.abandonPair number)
    | .ok () =>
      let blocksWritten := writer.blocksWritten + blocks.length
      return (.ok (), { writer with pair := some pair, number, blocksWritten })

/-- Write a batch. On success every block is in both files. After a failure what reached the storage
stays there, and the writer has moved on to the next pair; a batch with a block that is not fit to be
written is refused before anything is done. -/
def write (writer : ShardWriter) (blocks : List Block) :
    Program (Except Error Unit × ShardWriter) :=
  match checkBlocks blocks with
  | .error fault => return (.error (.invalidBlock fault), writer)
  | .ok () => do
    let (written, writer) ← writer.writeChecked blocks
    return (written.mapError .io, writer)

/-- Finish the open pair; the next batch starts a new one. When finishing fails the pair is let go of
and its number is kept. -/
def rollOver (writer : ShardWriter) : Program (Except Error Unit × ShardWriter) :=
  match writer.pair with
  | none => return (.ok (), { writer with number := writer.number + 1 })
  | some pair => do
    match ← pair.finish with
    | .error error => return (.error (.io error), { writer with pair := none })
    | .ok () => return (.ok (), writer.abandonPair writer.number)

/-- Finish the open pair for good. -/
def close (writer : ShardWriter) : Program (Except Error Unit) :=
  match writer.pair with
  | none => return .ok ()
  | some pair => do return (← pair.finish).mapError .io

/-- Let go of the open pair without making it durable. -/
def release (writer : ShardWriter) : Program Unit :=
  match writer.pair with
  | none => return ()
  | some pair => pair.release

end ShardWriter

end BlockShuffle
