import BlockShuffle.Cli.Arguments
import BlockShuffle.PartitionReader

/-!
# Checking files

What the commands do, as programs over storage that end in the lines to print and whether everything
checked out. `inspect` reads an index without planning it and checks each entry against the data
file on its own, so it has something to say about files that no reader would open. `verify` reads
every range the way a reader does and checks every block that a reader would be given.

The two commands disagree on purpose and, in one place, not on purpose. `inspect` is the tool for a
file that is under suspicion and takes its entries one by one; `verify` goes by what a reader would
do, so a shard that a reader leaves out is left out by it too, without a word in its report, and the
shuffle is said to be in order. For a reader that is sound, since a client that misses blocks fails
its completeness check; `verify` has no list of what it ought to find, and nothing takes the place
of the check. What it does verify, and a shuffle where it finds nothing wrong though a whole shard
is lost, are both in `Proofs/Cli/Verify`.

Output is a list of lines. Colours, the width of a terminal and the order of two output streams do
not appear, and neither does writing: no command changes a file.
-/

set_option autoImplicit false

namespace BlockShuffle.Cli

open Storage

/-- What a command leaves behind: lines of output and an exit code. -/
structure Report where
  lines : List String
  exitCode : UInt32
deriving DecidableEq, Repr

/-- The line in front of a line break. A carriage return there belongs to the break. -/
def dropReturn (line : List Char) : List Char :=
  if line.getLast? = some '\r' then line.dropLast else line

/-- The lines that the printed report is read as. One that holds a line break, in a path it names, is read
as several. -/
def Report.printed (report : Report) : List String :=
  report.lines.flatMap fun line =>
    (line.toList.splitOn '\n').map fun part => String.ofList (dropReturn part)

/-! ## Columns -/

/-- A text at the right end of a column; one that is too long has the width it needs. -/
def padLeft (width : Nat) (text : String) : String :=
  String.ofList (List.replicate (width - text.length) ' ') ++ text

/-- A text at the left end of a column. -/
def padRight (width : Nat) (text : String) : String :=
  text ++ String.ofList (List.replicate (width - text.length) ' ')

/-! ## Inspecting an index -/

/-- A row of the table of entries; the last column is as wide as it is. -/
def inspectRow (number id sequence task partition offset length status : String) : String :=
  String.intercalate "  " [padLeft 6 number, padLeft 20 id, padLeft 8 sequence, padLeft 8 task,
    padLeft 10 partition, padLeft 12 offset, padLeft 10 length, status]

def inspectHeader : String :=
  inspectRow "#" "block_id" "seq" "task" "partition" "offset" "length" "status"

/-- Whether an entry's bytes could be read and are the ones it says, and the words for it. -/
def entryStatus (entry : IndexEntry) (payload : Except IoError Bytes) : Bool × String :=
  match payload with
  | .error error => (false, s!"unreadable: {error.message}")
  | .ok payload =>
    let actual := crc32 payload
    if actual = entry.crc then (true, "ok")
    else (false, s!"crc mismatch (index {entry.crc}, data {actual})")

/-- The row of an entry, and whether it is in order. -/
def inspectEntry (data : Reader) (number : Nat) (entry : IndexEntry) : Program (Bool × String) := do
  let payload ← Program.readAt data entry.offset.toNat entry.length.toNat
  let (ok, status) := entryStatus entry payload
  let row := inspectRow (toString number) (toString entry.id.raw) (toString entry.id.sequence)
    (toString entry.id.task) (toString entry.id.partition) (toString entry.offset)
    (toString entry.length) status
  return (ok, row)

/-- The whole of an index file. -/
def readWhole (path : Path) : Program (Except IoError Bytes) := do
  match ← Program.openRead path with
  | .error error => return .error error
  | .ok reader =>
    match ← Program.size reader with
    | .error error => return .error error
    | .ok size => Program.readAt reader 0 size

/-- Show the entries of an index file and check each of them. -/
def inspect (index : Path) : Program Report := do
  match ← readWhole index with
  | .error _ => return ⟨[], 1⟩
  | .ok bytes =>
    let (entries, trailing) := IndexEntry.decodeAll bytes
    match ← Program.openRead (index.withExtension ShardFiles.dataExtension) with
    | .error _ => return ⟨[], 1⟩
    | .ok data =>
      let rows ← entries.zipIdx.mapM fun (entry, number) => inspectEntry data number entry
      let allOk := rows.all (·.1)
      let leftOver :=
        if 0 < trailing then [s!"{trailing} trailing bytes do not form a whole entry"] else []
      let verdict := if allOk then "all ok" else "ERRORS"
      let summary := s!"{entries.length} entries, {verdict}"
      return ⟨inspectHeader :: rows.map (·.2) ++ leftOver ++ [summary], if allOk then 0 else 1⟩

/-! ## Verifying a shuffle -/

/-- What was found in one partition range. -/
structure RangeReport where
  shards : Nat
  blocks : Nat := 0
  bytes : Nat := 0
  /-- Blocks whose bytes are not the ones the index says. -/
  corrupt : Nat := 0
deriving DecidableEq, Repr

/-- Count a block. -/
def RangeReport.count (report : RangeReport) (block : BlockSlice × Bytes) : RangeReport :=
  { report with
    blocks := report.blocks + 1
    bytes := report.bytes + block.1.length
    corrupt := report.corrupt + (if crc32 block.2 = block.1.crc then 0 else 1) }

/-- Read on from a read's number, counting every block; `left` more reads may be needed. -/
def countFrom : (left index : Nat) → PartitionReader → RangeReport →
    Program (Except Error RangeReport)
  | left, index, reader, report => do
    let (outcome, reader) ← reader.read index
    match outcome with
    | .error error => return .error error
    | .ok none => return .ok report
    | .ok (some batch) =>
      let report := batch.blocks.foldl RangeReport.count report
      match left with
      | 0 => return .ok report
      | left + 1 => countFrom left (index + 1) reader report

/-- Read a partition range to its end and count what is in it. -/
def verifyRange (config : ReadConfig) : Program (Except Error RangeReport) := do
  match ← PartitionReader.open config with
  | .error error => return .error error
  | .ok reader => countFrom reader.readCount 0 reader { shards := reader.shards.length }

/-- The settings that read a range. -/
def VerifyOptions.config (options : VerifyOptions) (range : PartitionRange) : ReadConfig where
  basePaths := [options.base]
  app := options.app
  shuffle := options.shuffle
  partition := range.first
  partitionsPerRange := options.perRange
  partitionCount := options.partitions

/-- The line about a range, and whether it is in order. -/
def rangeLine (range : PartitionRange) (outcome : Except Error RangeReport) : Bool × String :=
  let name := padLeft 12 range.text
  match outcome with
  | .error error => (false, s!"{name}  FAILED: {error.message}")
  | .ok report =>
    let shards := padRight 4 (toString report.shards)
    let blocks := padRight 8 (toString report.blocks)
    let bytes := padRight 12 (toString report.bytes)
    (report.corrupt == 0,
      s!"{name}  shards={shards} blocks={blocks} bytes={bytes} corrupt={report.corrupt}")

/-- Check every block of a shuffle, range by range. -/
def verify (options : VerifyOptions) : Program Report := do
  let ranges := PartitionRange.all options.partitions options.perRange
  let lines ← ranges.mapM fun range => do
    return rangeLine range (← verifyRange (options.config range))
  return ⟨lines.map (·.2), if lines.all (·.1) then 0 else 1⟩

/-! ## Running a command line -/

/-- Arguments as a command is given them. One with a NUL in it, which is where it would end, keeps the
command from being started. -/
def passed (arguments : List String) : Except IoError (List String) :=
  if arguments.any fun argument => argument.toList.contains '\x00' then
    .error ⟨.invalidInput, "nul byte found in provided data"⟩
  else .ok arguments

/-- The exit code of a command line that makes no sense. -/
def usageExitCode : UInt32 := 2

/-- Do what a command line asks for. -/
def run (arguments : List String) : Program Report :=
  match Command.ofArguments arguments with
  | .inspect index => inspect index
  | .verify options => verify options
  | .show lines => return ⟨lines, 0⟩
  | .usageError => return ⟨[], usageExitCode⟩

end BlockShuffle.Cli
