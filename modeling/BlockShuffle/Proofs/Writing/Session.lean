import Mathlib
import BlockShuffle.Proofs.Storage.Stepwise
import BlockShuffle.Proofs.Writing.Shard

/-!
# A shard while it is written

The writers of a shard come one after another, and any of them may be asked anything and meet any failure.
`serve` is that: a list of requests, two of which put a new writer in the place of the old one.

What a reader may find in the meantime is said of every point of such a run, between any two storage calls and
not only between requests (`entries_backed_throughout`). A write in progress has its payloads in the data file
before any of its entries is in the index, so an entry that is there in full is backed, and what is there of
the next entry is not an entry yet.

A new writer is one of the same shard with nothing open that starts to search at number zero. It knows nothing
of the one before it, and what it may rely on is in memory alone. The requests are fixed beforehand, and that
includes what a caller does after a failure: as every list of requests is considered, one that depends on the
answers is among them.

Being backed is said with the blocks that were handed over and not with those that were written, since a batch
that fails may leave entries of its blocks, which are then as good as any. How a run is stopped at a point
between two calls is in `Proofs/Storage/Stepwise`.
-/

set_option autoImplicit false

namespace BlockShuffle

open Storage Program

namespace Memory.Extends

variable {memory later : Memory}

theorem getD_mono (h : memory.Extends later) (path : Path) :
    (memory.bytes? path).getD [] <+: (later.bytes? path).getD [] := by
  cases hbytes : memory.bytes? path with
  | none => exact List.nil_prefix
  | some bytes =>
    obtain ⟨more, hmore⟩ := h path bytes hbytes
    rw [hmore]
    exact List.prefix_append _ _

end Memory.Extends

/-- A block that is in a shard stays in it while no byte is lost. -/
theorem Stored.of_extends {files : UInt32 → ShardFiles} {memory later : Memory} {block : Block}
    (h : Stored files memory block) (hextends : memory.Extends later) : Stored files later block := by
  obtain ⟨n, data, hdata, hentry⟩ := h
  obtain ⟨more, hmore⟩ := hextends _ data hdata
  refine ⟨n, ?_⟩
  rw [hmore]
  exact Held.append ⟨data, rfl, hentry⟩ (List.prefix_append _ _) (hextends.getD_mono _)

namespace ShardWriter

/-! ## Requests -/

theorem create_eq_ok {config : WriteConfig} {range : PartitionRange} {shard : String}
    {writer : ShardWriter} (h : create config range shard = .ok writer) :
    isShardName writer.shard = true ∧ writer.pair = none := by
  rw [create] at h
  split at h
  · rename_i hshard
    cases h
    exact ⟨hshard, rfl⟩
  · cases h

theorem create_eq_ok_iff {config : WriteConfig} {range : PartitionRange} {shard : String} {writer : ShardWriter} :
    create config range shard = .ok writer ↔ isShardName shard = true ∧
      writer = { layout := config.layout, range, shard, strategy := config.sync } := by
  rw [create]
  split
  · rename_i hshard
    rw [Except.ok.injEq, and_iff_right hshard, eq_comm]
  · rename_i hshard
    simp [hshard]

/-- One thing to do with the writer of a shard. Where it is closed or dropped, another takes its place. -/
inductive Request where
  | write (blocks : List Block)
  | rollOver
  | close (strategy : SyncStrategy)
  | drop (strategy : SyncStrategy)

/-- A new writer of the same shard. -/
def renew (writer : ShardWriter) (strategy : SyncStrategy) : ShardWriter :=
  { layout := writer.layout, range := writer.range, shard := writer.shard, strategy }

theorem create_renew {config : WriteConfig} {range : PartitionRange} {shard : String} {writer : ShardWriter}
    (h : create config range shard = .ok writer) (strategy : SyncStrategy) :
    create { config with sync := strategy } range shard = .ok (writer.renew strategy) := by
  rw [create] at h ⊢
  split at h
  · rename_i hshard
    cases h
    rw [if_pos hshard]
    rfl
  · cases h

def handle (writer : ShardWriter) : Request → Program (Except Error Unit × ShardWriter)
  | .write blocks => writer.write blocks
  | .rollOver => writer.rollOver
  | .close strategy => do
    let closed ← writer.close
    return (closed, writer.renew strategy)
  | .drop strategy => do
    writer.release
    return (.ok (), writer.renew strategy)

/-- Serve requests in order, and list the answers. -/
def serve : List Request → ShardWriter → Program (List (Except Error Unit) × ShardWriter)
  | [], writer => return ([], writer)
  | request :: rest, writer => do
    let (answer, writer) ← writer.handle request
    let (answers, writer) ← serve rest writer
    return (answer :: answers, writer)

/-- The blocks that are handed to a writer. -/
def Request.blocks : Request → List Block
  | .write blocks => blocks
  | _ => []

/-- The blocks that were written, by the answers. -/
def written : List Request → List (Except Error Unit) → List Block
  | request :: requests, .ok () :: answers => request.blocks ++ written requests answers
  | _ :: requests, .error _ :: answers => written requests answers
  | _, _ => []

/-! ## Nothing is taken away -/

section Additions

theorem only_release (pair : OpenPair) : pair.release.Only Call.Adds :=
  (only_call trivial).bind fun _ => only_call trivial

theorem only_finish (pair : OpenPair) : pair.finish.Only Call.Adds := by
  refine Only.bind (only_call trivial) ?_
  rintro ⟨error | ⟨⟩, data⟩
  · exact (only_release _).bind fun _ => only_done _
  · exact (only_call trivial).bind fun _ => (only_release _).bind fun _ => only_done _

theorem only_push (strategy : SyncStrategy) (appender : Appender) :
    (OpenPair.push strategy appender).Only Call.Adds := by
  cases strategy <;> exact only_call trivial

theorem only_appendPayloads (data : Appender) (done : List IndexEntry) (blocks : List Block) :
    (OpenPair.appendPayloads data done blocks).Only Call.Adds := by
  induction blocks generalizing data done with
  | nil => exact only_done _
  | cons block blocks ih =>
    refine Only.bind (only_call trivial) ?_
    rintro ⟨error | ⟨⟩, data⟩
    · exact only_done _
    · exact ih _ _

theorem only_writeBatch (strategy : SyncStrategy) (pair : OpenPair) (blocks : List Block) :
    (pair.writeBatch strategy blocks).Only Call.Adds := by
  refine (only_appendPayloads _ _ _).bind ?_
  rintro ⟨error | entries, data⟩
  · exact only_done _
  refine (only_push _ _).bind ?_
  rintro ⟨error | ⟨⟩, data⟩
  · exact only_done _
  refine Only.bind (Only.bind (only_call trivial) ?_) fun _ => only_done _
  rintro ⟨error | ⟨⟩, index⟩
  · exact only_done _
  · exact only_push _ _

theorem only_openPairFrom (writer : ShardWriter) (left : Nat) (number : UInt32) :
    (writer.openPairFrom left number).Only Call.Adds := by
  induction left using Nat.strong_induction_on generalizing number with
  | _ left ih =>
    rw [openPairFrom.eq_def]
    refine Only.bind (only_call trivial) ?_
    rintro (error | index)
    · exact only_done _
    dsimp only
    split
    · refine Only.bind (only_call trivial) ?_
      rintro (error | data)
      · exact (only_call trivial).bind fun _ => only_done _
      · exact only_done _
    · refine Only.bind (only_call trivial) fun _ => ?_
      cases left with
      | zero => exact only_done _
      | succ left => exact ih left (Nat.lt_succ_self left) _

theorem only_write (writer : ShardWriter) (blocks : List Block) :
    (writer.write blocks).Only Call.Adds := by
  rw [write]
  split
  · exact only_done _
  refine Only.bind ?_ fun _ => only_done _
  have hopen : writer.openPair.Only Call.Adds := by
    rw [openPair.eq_def]
    split
    · exact only_done _
    · exact only_openPairFrom _ _ _
  refine hopen.bind ?_
  rintro ⟨error | pair, number⟩
  · exact only_done _
  refine (only_writeBatch _ _ _).bind ?_
  rintro ⟨error | ⟨⟩, pair⟩
  · exact (only_release _).bind fun _ => only_done _
  · exact only_done _

theorem only_rollOver (writer : ShardWriter) : writer.rollOver.Only Call.Adds := by
  rw [rollOver.eq_def]
  split
  · exact only_done _
  · refine (only_finish _).bind ?_
    rintro (error | ⟨⟩) <;> exact only_done _

theorem only_close (writer : ShardWriter) : writer.close.Only Call.Adds := by
  rw [close.eq_def]
  split
  · exact only_done _
  · exact (only_finish _).bind fun _ => only_done _

theorem only_drop (writer : ShardWriter) : writer.release.Only Call.Adds := by
  rw [release.eq_def]
  split
  · exact only_done _
  · exact only_release _

theorem only_handle (writer : ShardWriter) (request : Request) :
    (writer.handle request).Only Call.Adds := by
  cases request with
  | write blocks => exact only_write writer blocks
  | rollOver => exact only_rollOver writer
  | close strategy => exact (only_close writer).bind fun _ => only_done _
  | drop strategy => exact (only_drop writer).bind fun _ => only_done _

theorem only_serve (requests : List Request) (writer : ShardWriter) :
    (serve requests writer).Only Call.Adds := by
  induction requests generalizing writer with
  | nil => exact only_done _
  | cons request rest ih =>
    exact (only_handle writer request).bind fun _ => (ih _).bind fun _ => only_done _

end Additions

/-! ## What a session leaves -/

section Sessions

variable {writer : ShardWriter} {inv : Memory → Prop} {start : Memory}

theorem ensures_close {pre : Memory → Prop} : writer.close.Ensures pre fun _ memory => pre memory := by
  rw [close.eq_def]
  split
  · exact ensures_done fun _ h => h
  · exact ensures_finish.bind fun _ => ensures_done fun _ h => h

theorem ensures_drop {pre : Memory → Prop} : writer.release.Ensures pre fun _ memory => pre memory := by
  rw [release.eq_def]
  split
  · exact ensures_done fun _ h => h
  · exact ensures_release

/-- **Any request leaves a writer of the same shard that can go on**, and its blocks in the shard, if it is a
batch that was written. -/
theorem ensures_handle (hapart : Apart writer.filesOf) {request : Request}
    (h : Withstands writer.filesOf request.blocks inv inv) :
    (writer.handle request).Ensures (fun memory => inv memory ∧ writer.HasOpen memory)
      (fun result => writer.Leaves inv request.blocks (result.1 = .ok ()) result.2) := by
  cases request with
  | write blocks => exact ensures_write_leaves hapart h
  | rollOver =>
    refine ensures_rollOver.mono (fun _ h => h.1) ?_
    rintro ⟨answer, after⟩ memory ⟨hsame, hmemory, hnone⟩
    exact ⟨hsame, ⟨hmemory, hasOpen_of_pair_eq_none hnone⟩, by simp [Request.blocks]⟩
  | close strategy =>
    refine ensures_close.bind fun closed => ensures_done ?_
    rintro memory ⟨hmemory, -⟩
    exact ⟨⟨rfl, rfl, rfl⟩, ⟨hmemory, hasOpen_of_pair_eq_none rfl⟩, by simp [Request.blocks]⟩
  | drop strategy =>
    refine ensures_drop.bind fun _ => ensures_done ?_
    rintro memory ⟨hmemory, -⟩
    exact ⟨⟨rfl, rfl, rfl⟩, ⟨hmemory, hasOpen_of_pair_eq_none rfl⟩, by simp [Request.blocks]⟩

theorem mem_written_cons {block : Block} {request : Request} {requests : List Request}
    {answer : Except Error Unit} {answers : List (Except Error Unit)}
    (h : block ∈ written (request :: requests) (answer :: answers)) :
    (answer = .ok () ∧ block ∈ request.blocks) ∨ block ∈ written requests answers := by
  cases answer with
  | error error => exact Or.inr h
  | ok => exact (List.mem_append.mp h).imp_left fun hblock => ⟨rfl, hblock⟩

/-- **Whatever is asked, the shard has every block that was written.** -/
theorem ensures_serve {requests : List Request} : ∀ {writer : ShardWriter}, Apart writer.filesOf →
    (∀ request ∈ requests, Withstands writer.filesOf request.blocks inv inv) →
    (serve requests writer).Ensures (fun memory => inv memory ∧ writer.HasOpen memory) fun result memory =>
      SameShard writer result.2 ∧ (inv memory ∧ result.2.HasOpen memory) ∧
      ∀ block ∈ written requests result.1, Stored writer.filesOf memory block := by
  induction requests with
  | nil =>
    intro writer _ _
    exact ensures_done fun memory h => ⟨⟨rfl, rfl, rfl⟩, h, by simp [written]⟩
  | cons request rest ih =>
    intro writer hapart hwithstands
    rw [List.forall_mem_cons] at hwithstands
    refine (ensures_handle hapart hwithstands.1).bind ?_
    rintro ⟨answer, mid⟩
    apply Ensures.of_each
    rintro memory ⟨hsame, hmemory, hstored⟩
    have hrest := (ih (hsame.filesOf_eq ▸ hapart) (hsame.filesOf_eq ▸ hwithstands.2)).and
      (Memory.ensures_extends (only_serve rest mid) memory)
    refine (hrest.from_memory ⟨hmemory, Memory.Extends.refl memory⟩).bind ?_
    rintro ⟨answers, last⟩
    apply ensures_done
    rintro memory' ⟨⟨hsame', hmemory', hwritten⟩, hextends⟩
    refine ⟨hsame.trans hsame', hmemory', fun block hblock => ?_⟩
    rcases mem_written_cons hblock with ⟨hok, hblock⟩ | hblock
    · exact (hstored hok block hblock).of_extends hextends
    · rw [← hsame.filesOf_eq]
      exact hwritten block hblock

/-! ## A shard that is new -/

theorem keeps_of_new {files : UInt32 → ShardFiles}
    (hnew : ∀ n, start.find? (files n).data = none ∧ start.find? (files n).index = none)
    (allowed : Block → Prop) : Keeps files allowed start start := by
  refine Keeps.refl fun n => ?_
  rw [Memory.bytes?, Memory.bytes?, (hnew n).1, (hnew n).2]
  exact Backed.nothing _ _

/-- What is handed over is all that is in the pairs. -/
theorem withstands_given {files : UInt32 → ShardFiles} (hapart : Apart files) (requests : List Request)
    (start : Memory) : ∀ request ∈ requests, Withstands files request.blocks
      (Keeps files (· ∈ requests.flatMap Request.blocks) start)
      (Keeps files (· ∈ requests.flatMap Request.blocks) start) :=
  fun request hr => withstands_keeps hapart fun _ hblock => List.mem_flatMap.mpr ⟨request, hr, hblock⟩

/-- **At every point of writing, what is in an index was written before.** Take a shard whose files do not exist
at first, writers for it one after another, and any failures. Wherever the run of a request is stopped between
two storage calls, each pair's index is whole entries and fewer bytes than one takes; each entry is that of a
block that was handed over, with exactly its payload where the entry points; the entries are in order, so that
reads can be planned for them; and each block whose write was acknowledged has such an entry. -/
theorem entries_backed_throughout {config : WriteConfig} {range : PartitionRange} {shard : String}
    {writer mid : ShardWriter} (hcreate : create config range shard = .ok writer)
    (hnew : ∀ n, start.find? (writer.filesOf n).data = none ∧ start.find? (writer.filesOf n).index = none)
    {failures : Nat → Option (IoError × Nat)} {before : List Request} {answers : List (Except Error Unit)}
    {state : Unreliable}
    (hbefore : (serve before writer).run Unreliable.handler ⟨start, failures⟩ = ((answers, mid), state))
    (request : Request) (count : Nat) {memory : Memory}
    (hpoint : ((mid.handle request).steps Unreliable.handler count state).2.memory = memory) :
    (∀ n, ∃ entries tail,
      (memory.bytes? (writer.filesOf n).index).getD [] = IndexEntry.encodeAll entries ++ tail ∧
      tail.length < IndexEntry.size ∧
      (∀ entry ∈ entries, ∃ data, memory.bytes? (writer.filesOf n).data = some data ∧
        ∃ block ∈ (before ++ [request]).flatMap Request.blocks,
          entry = OpenPair.entryAt entry.offset block ∧
          data.slice? entry.offset.toNat entry.length.toNat = some block.payload) ∧
      entries.Pairwise ReadPlan.Before ∧
      ∀ byteLimit entryLimit, ∃ reads, ReadPlan.ofEntries entries byteLimit entryLimit = .ok reads) ∧
    ∀ block ∈ written before answers, ∃ n data,
      memory.bytes? (writer.filesOf n).data = some data ∧
      ∃ entry ∈ (IndexEntry.decodeAll ((memory.bytes? (writer.filesOf n).index).getD [])).1,
        entry = OpenPair.entryAt entry.offset block ∧
        data.slice? entry.offset.toNat entry.length.toNat = some block.payload := by
  have hapart : Apart writer.filesOf := apart_filesOf (create_eq_ok hcreate).1
  have hwithstands := withstands_given hapart (before ++ [request]) start
  rw [List.forall_mem_append, List.forall_mem_singleton] at hwithstands
  -- Between requests the shard is kept, and inside one it is so at every point.
  have hrun := ensures_serve hapart hwithstands.1 ⟨start, failures⟩
    ⟨keeps_of_new hnew _, hasOpen_of_pair_eq_none (create_eq_ok hcreate).2⟩
  rw [hbefore] at hrun
  obtain ⟨hsame, hmid, hwritten⟩ := hrun
  have hfiles : mid.filesOf = writer.filesOf := hsame.filesOf_eq
  dsimp only at hmid
  rw [← hfiles] at hwithstands hmid
  obtain ⟨⟨answer, after⟩, -, ⟨hkeeps, -⟩, -⟩ :=
    (ensures_handle (hfiles ▸ hapart) hwithstands.2).at_steps hmid count
  have hextends := Memory.extends_steps (only_handle mid request) count state
  rw [hpoint] at hkeeps hextends
  rw [hfiles] at hkeeps
  constructor
  · intro n
    obtain ⟨tail, hsplit, htail⟩ :=
      IndexEntry.exists_tail ((memory.bytes? (writer.filesOf n).index).getD [])
    have hordered := (hkeeps.backed n).ordered
    refine ⟨_, tail, hsplit, htail, ?_, (ReadPlan.checkOrdered_eq_ok_iff.mp hordered).2.2, ?_⟩
    · intro entry hentry
      exact (hkeeps.backed n).backed entry hentry
    · intro byteLimit entryLimit
      exact ⟨_, ReadPlan.ofEntries_eq_ok_iff.mpr ⟨hordered, rfl⟩⟩
  · intro block hblock
    obtain ⟨n, data, hdata, entry, hentry, hbacks⟩ := (hwritten block hblock).of_extends hextends
    exact ⟨n, data, hdata, entry, hentry, hbacks⟩

end Sessions

/-! ## An entry that is cut in two -/

/-- A writer of a shard that is not there yet. -/
def writerOfNew : ShardWriter where
  layout := ⟨.ofText "a", "app", 0⟩
  range := ⟨0, 0⟩
  shard := "w"
  strategy := .everyBatch

def oneByte (byte : UInt8) : Block := ⟨1, 1, crc32 [byte], ⟨byte.toUInt64⟩, 0, [byte]⟩

/-- The first batch of two fails with 40 bytes of its entries in the index. -/
def entryCutShort : Nat → Option (IoError × Nat) := fun count =>
  if count = 5 then some (⟨.other, ""⟩, 40) else none

/-- While the next batch is written, the index of the first has one entry and four bytes. -/
theorem entries_backed_throughout_cutShort :
    let run := (serve [.write [oneByte 1, oneByte 2]] writerOfNew).run Unreliable.handler ⟨{}, entryCutShort⟩
    let memory := ((run.1.2.handle (.write [oneByte 3])).steps Unreliable.handler 3 run.2).2.memory
    run.1.1.map Except.isOk = [false] ∧
    (memory.bytes? (writerOfNew.filesOf 0).index).map List.length = some 40 ∧
    (memory.bytes? (writerOfNew.filesOf 1).data) = some [3] ∧
    ∃ entries tail,
      (memory.bytes? (writerOfNew.filesOf 0).index).getD [] = IndexEntry.encodeAll entries ++ tail ∧
      tail.length < IndexEntry.size ∧
      ∀ entry ∈ entries, ∃ block ∈ [oneByte 1, oneByte 2, oneByte 3],
        entry = OpenPair.entryAt entry.offset block := by
  intro run memory
  refine ⟨by decide +kernel, by decide +kernel, by decide +kernel, ?_⟩
  have hcreate : create { base := .ofText "a", app := "app" } ⟨0, 0⟩ "w" = .ok writerOfNew := rfl
  have hnew : ∀ n, Memory.find? {} (writerOfNew.filesOf n).data = none ∧
      Memory.find? {} (writerOfNew.filesOf n).index = none := fun n => ⟨rfl, rfl⟩
  have hbefore : (serve [.write [oneByte 1, oneByte 2]] writerOfNew).run Unreliable.handler
      ⟨{}, entryCutShort⟩ = ((run.1.1, run.1.2), run.2) := rfl
  obtain ⟨hpairs, -⟩ := entries_backed_throughout hcreate hnew hbefore (.write [oneByte 3]) 3 rfl
  obtain ⟨entries, tail, hsplit, htail, hbacked, -⟩ := hpairs 0
  refine ⟨entries, tail, hsplit, htail, fun entry hentry => ?_⟩
  obtain ⟨data, -, block, hblock, hof, -⟩ := hbacked entry hentry
  exact ⟨block, hblock, hof⟩

end ShardWriter

end BlockShuffle
