import BlockShuffle.ReadMetrics
import BlockShuffle.Reconciler
import BlockShuffle.Record.Codec

/-!
# Streams of records

The records of a partition, block by block in the order of delivery. A stream gives records, then at
most one error, then nothing for ever:

* a read that fails and a block that does not decode end it with that error, after the records of the
  blocks before it;
* when every read was made, the completeness check runs once and its failure, if any, is the last
  thing given;
* when it was stopped, it ends without a check. Blocks that had been delivered to it before are still
  decoded and given, unless the stream itself was closed.

The client is run in the middle of this: a stream asks it for a batch, decodes the blocks of that
batch one by one as records are asked for, and counts. Only `fetch` asks the storage; what a stream
does between two reads is a function of its state (`nextHeld`). The bytes of a block are counted
when it was decoded, not when it was delivered and not when its records were given, and those of one
that does not decode are not counted. A record is counted when it is given.

Deserialising is a parameter. The stream knows of records that they are decoded from a payload as a
list, or not at all. Two streams over one client, and a stream whose client is used directly as
well, are not excluded by the type, but the state of the client is inside the stream here, so what
is proved of a stream is proved of one that has its client for itself, apart from cancelling, which
somebody else may do at any time.
-/

set_option autoImplicit false

namespace BlockShuffle

open Storage

/-- The state of a stream of records. -/
structure RecordStream (α : Type) where
  codec : RecordCodec α
  source : Reconciler
  metrics : ReadMetrics := {}
  /-- Payloads of delivered blocks that are not decoded yet. -/
  blocks : List Bytes := []
  /-- Records of the last block decoded that are not given yet. -/
  records : List α := []
  finished : Bool := false

namespace RecordStream

variable {α : Type}

/-- A stream over a reconciler. -/
def ofReconciler (codec : RecordCodec α) (source : Reconciler) : RecordStream α :=
  { codec, source }

/-- Stop early and let go of the storage. -/
def close (stream : RecordStream α) : RecordStream α :=
  { stream with finished := true, source := stream.source.close }

/-- The end of the stream. The check is for a stream that was read to its end. -/
def finish (stream : RecordStream α) : Option (Except Error α) × RecordStream α :=
  let outcome :=
    if stream.source.exhausted then
      match stream.source.checkComplete with
      | .ok () => none
      | .error error => some (.error error)
    else none
  (outcome, stream.close)

/-- The end of the stream in an error. -/
def fail (stream : RecordStream α) (error : Error) : Option (Except Error α) × RecordStream α :=
  (some (.error error), stream.close)

/-- Decode blocks until one has records. What is answered is a record, a fault, or nothing where the
blocks are used up. -/
def decodeBlocks (codec : RecordCodec α) (metrics : ReadMetrics) :
    List Bytes → Option (Except RecordFault (α × List α)) × List Bytes × ReadMetrics
  | [] => (none, [], metrics)
  | block :: rest =>
    match codec.decodeAll block with
    | .error fault => (some (.error fault), rest, metrics)
    | .ok records =>
      let metrics := metrics.countBytes (UInt64.ofNat block.length)
      match records with
      | [] => decodeBlocks codec metrics rest
      | record :: records => (some (.ok (record, records)), rest, metrics)

/-- Give a record. -/
def give (stream : RecordStream α) (record : α) (records : List α) :
    Option (Except Error α) × RecordStream α :=
  (some (.ok record), { stream with records, metrics := stream.metrics.countRecords 1 })

/-- The next thing the stream can give without reading: nothing, if it has to read. -/
def nextHeld (stream : RecordStream α) :
    Option (Option (Except Error α)) × RecordStream α :=
  match stream.records with
  | record :: records =>
    let (item, stream) := stream.give record records
    (some item, stream)
  | [] =>
    let (outcome, blocks, metrics) := decodeBlocks stream.codec stream.metrics stream.blocks
    let stream := { stream with blocks, metrics }
    match outcome with
    | none => (none, stream)
    | some (.ok (record, records)) =>
      let (item, stream) := stream.give record records
      (some item, stream)
    | some (.error fault) =>
      let (item, stream) := stream.fail (.serialization fault)
      (some item, stream)

/-- Wait for a batch. -/
def fetch (stream : RecordStream α) : Program (Except Error Bool × RecordStream α) := do
  let started ← Program.clock
  let (outcome, source) ← stream.source.read
  let stream := { stream with source }
  match outcome with
  | .error error => return (.error error, stream)
  | .ok none => return (.ok false, stream)
  | .ok (some batch) =>
    let stopped ← Program.clock
    return (.ok true, { stream with
      metrics := stream.metrics.countWait (stopped - started)
      blocks := stream.blocks ++ batch.blocks.map (·.2) })

/-- Read on to the next thing to give; `left` more batches may be needed. -/
def nextFrom : (left : Nat) → RecordStream α →
    Program (Option (Except Error α) × RecordStream α)
  | left, stream =>
    if stream.finished then return (none, stream)
    else
      match stream.nextHeld with
      | (some item, stream) => return (item, stream)
      | (none, stream) => do
        let (outcome, stream) ← stream.fetch
        match outcome with
        | .error error => return stream.fail error
        | .ok false => return stream.finish
        | .ok true =>
          match left with
          | 0 => return (none, stream)
          | left + 1 => nextFrom left stream

/-- The next record, the error that ends the stream, or nothing. -/
def next (stream : RecordStream α) : Program (Option (Except Error α) × RecordStream α) :=
  nextFrom (stream.source.reader.readCount - stream.source.nextRead) stream

end RecordStream

end BlockShuffle
