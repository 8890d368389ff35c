import Mathlib
import BlockShuffle.Proofs.Reading.Feeding
import BlockShuffle.Proofs.Storage.Shared
import BlockShuffle.Proofs.Writing.Session

/-!
# Reading a shard while it is written

A reader opens a pair of a shard and reads from it, and a writer of the shard goes on all the time, call by call.
What the reader gets is the pair as it was at one moment, when the size of its index was taken
(`snapshot_of_live_writer`): entries that come later are not looked at, half an entry at the end is cut off, and
the payloads of the entries that are listed are where they were.

Until that moment the reader knows nothing, so all that is used is that the pair is backed at every point of the
writer's run (`Backing`). From that moment on nothing is taken away (`Shared.Ahead`), and reading is as on a
storage that holds still.

Who writes is a writer that goes through any requests, renewals included, with any failures; who reads makes any
reads, once the shard is open. The reader meets no failure of its own. Between two of its calls the writer makes
as many as it likes, and the moment is found inside a call of the reader, since the size of a file is answered
at once.

Only a shard that is new is considered, whose files were made by its writer. That its index was planned is part
of the result: a backed pair is in order, so there is no third way for it to be left out. A reader that reads
the whole partition would see each shard at a moment of its own, and no statement joins these.
-/

set_option autoImplicit false

namespace BlockShuffle

open Storage Program

variable {α : Type}

namespace Shared

/-- Wherever the writer gets to, the pair is backed, and the size of its index was not taken yet. -/
structure Backing (files : ShardFiles) (allowed : Block → Prop) (world : Shared α) : Prop where
  adds : world.writer.Only Call.Adds
  backed : ∀ count memory, (world.writer.steps Unreliable.handler count world.storage).2.memory = memory →
    Backed allowed (memory.bytes? files.data) (memory.bytes? files.index)
  unseen : ∀ moment, (.size { path := files.index }, moment) ∉ world.seen

variable {files : ShardFiles} {allowed : Block → Prop} {world : Shared α}

theorem Backing.met (h : Backing files allowed world) :
    Backed allowed (world.met.2.memory.bytes? files.data) (world.met.2.memory.bytes? files.index) :=
  h.backed (world.turns 0) _ rfl

theorem Backing.step (h : Backing files allowed world) {call : Call} (hlooks : Looks call)
    (hcall : call ≠ .size { path := files.index }) : Backing files allowed (handler call world).2 := by
  rw [handler_of_looks hlooks]
  refine ⟨h.adds.steps _ _, fun count memory hmemory => h.backed (world.turns 0 + count) memory ?_,
    fun moment hseen => ?_⟩
  · rw [steps_add]
    exact hmemory
  · rcases List.mem_cons.mp hseen with heq | hbefore
    · exact hcall (Prod.mk.inj heq).1.symm
    · exact h.unseen moment hbefore

/-- A file of the pair was looked up before it was there. -/
def Missed (files : ShardFiles) (world : Shared α) : Prop :=
  ∃ moment : Memory, ((.probe files.data, moment) ∈ world.seen ∧ moment.find? files.data = none) ∨
    ((.openRead files.index, moment) ∈ world.seen ∧ moment.find? files.index = none)

end Shared

namespace ShardReader

open Shared

variable {files : ShardFiles} {allowed : Block → Prop} {world : Shared α}

/-! ## The index -/

/-- The index is opened once it is there; before that it is missed. -/
theorem leads_openIndex :
    (Program.openRead files.index).Leads (Shared.handler : Handler (Shared α))
      (Backing files allowed) fun outcome world =>
      (outcome = .error (Memory.notFound files.index) ∧ Missed files world) ∨
      (outcome = .ok { path := files.index } ∧ Backing files allowed world ∧
        ∃ bytes, world.storage.memory.bytes? files.index = some bytes) := by
  intro world h
  have hlooks : Looks (.openRead files.index) := fun _ => rfl
  have hstep := h.step hlooks nofun
  rw [Program.openRead, run_call]
  rw [handler_of_looks hlooks] at hstep ⊢
  dsimp only [Memory.handler]
  cases hfind : world.met.2.memory.find? files.index with
  | none => exact Or.inl ⟨rfl, _, Or.inr ⟨List.mem_cons_self, hfind⟩⟩
  | some contents => exact Or.inr ⟨rfl, hstep, contents.bytes, Memory.bytes?_of_find? hfind⟩

/-- The moment of the reader: the size of the index is taken. -/
theorem leads_size :
    (Program.size { path := files.index }).Leads (Shared.handler : Handler (Shared α))
      (fun world => Backing files allowed world ∧
        ∃ bytes, world.storage.memory.bytes? files.index = some bytes) fun outcome world =>
      ∃ moment contents, moment.find? files.index = some contents ∧ outcome = .ok contents.length ∧
        Backed allowed (moment.bytes? files.data) (moment.bytes? files.index) ∧
        Ahead files.index moment world := by
  rintro world ⟨h, bytes, hbytes⟩
  have hlooks : Looks (.size { path := files.index }) := fun _ => rfl
  obtain ⟨more, hmore⟩ := Memory.extends_steps h.adds (world.turns 0) world.storage _ _ hbytes
  obtain ⟨contents, hfind, -⟩ := Option.map_eq_some_iff.mp hmore
  -- An index that was there to be opened is there now, and may have grown.
  refine ⟨world.met.2.memory, contents, hfind, ?_, h.met, ahead_met h.adds h.unseen⟩
  rw [Program.size, run_call, handler_of_looks hlooks]
  change Memory.size _ _ = _
  rw [Memory.size]
  dsimp only
  rw [show world.met.2.memory.find? files.index = some contents from hfind]

/-- **An index is read as it was when its size was taken.** -/
theorem leads_readIndex (policy : RetryPolicy) (entryLimit : Nat) :
    (readIndex policy files.index entryLimit).Leads (Shared.handler : Handler (Shared α))
      (Backing files allowed)
      fun answer world =>
        (∃ error, answer = .error error ∧ error.isNotFound = true ∧ Missed files world) ∨
        ∃ moment, answer = .ok (indexEntries moment.bytes? files.index) ∧
          Backed allowed (moment.bytes? files.data) (moment.bytes? files.index) ∧
          Ahead files.index moment world := by
  rw [readIndex]
  refine (leads_retried policy leads_openIndex ?_).bind fun answer => Leads.of_each ?_
  · rintro outcome world (⟨rfl, -⟩ | ⟨rfl, -⟩) <;> rfl
  rintro world ⟨attempts, outcome, ⟨rfl, hmissed⟩ | ⟨rfl, hfound⟩, rfl⟩
  · rintro _ rfl
    exact Or.inl ⟨_, rfl, rfl, hmissed⟩
  dsimp only [settle]
  refine ((leads_retried policy leads_size ?_).from_state hfound).bind fun answer => Leads.of_each ?_
  · rintro outcome world ⟨moment, contents, -, rfl, -⟩
    rfl
  rintro world ⟨attempts, outcome, ⟨moment, contents, hfind, rfl, hbacked, hahead⟩, rfl⟩
  -- From here on the entries are read as from a storage that holds still.
  have hread := yields_readEntries offers_ahead.pause (holds_ahead hfind) policy entryLimit
    (contents.length - contents.length % IndexEntry.size) 0 []
    (by rw [Contents.length_bytes]; omega) world hahead
  rintro _ rfl
  refine Or.inr ⟨moment, hread.1.trans ?_, hbacked, hread.2⟩
  rw [List.drop_zero, ← Contents.length_bytes, IndexEntry.decodeAll_take_whole, indexEntries,
    Memory.bytes?_of_find? hfind]
  rfl

/-! ## The shard -/

theorem leads_probe :
    (Program.probe files.data).Leads (Shared.handler : Handler (Shared α)) (Backing files allowed)
      fun outcome world =>
        (outcome = .ok false ∧ Missed files world) ∨ (outcome = .ok true ∧ Backing files allowed world) := by
  intro world h
  have hlooks : Looks (.probe files.data) := fun _ => rfl
  have hstep := h.step hlooks nofun
  rw [Program.probe, run_call]
  rw [handler_of_looks hlooks] at hstep ⊢
  dsimp only [Memory.handler]
  cases hcontains : world.met.2.memory.contains files.data with
  | true => exact Or.inr ⟨rfl, hstep⟩
  | false =>
    refine Or.inl ⟨rfl, _, Or.inl ⟨List.mem_cons_self, ?_⟩⟩
    cases hfind : world.met.2.memory.find? files.data with
    | none => rfl
    | some contents =>
      rw [Memory.contains_of_find? hfind] at hcontains
      cases hcontains

/-- A shard that was opened, with the entries that its index had at some moment. -/
structure OpenedAt (files : ShardFiles) (allowed : Block → Prop) (settings : ReadConfig) (moment : Memory)
    (reader : ShardReader) : Prop where
  files_eq : reader.files = files
  backed : Backed allowed (moment.bytes? files.data) (moment.bytes? files.index)
  openedFrom : reader.OpenedFrom moment.bytes? settings
  blockCount_eq : reader.blockCount = (indexEntries moment.bytes? files.index).length

/-- **A shard opens as it was at one moment**, and counts as not there only if a file of it was not. -/
theorem leads_open (settings : ReadConfig) :
    (ShardReader.open files settings.entryLimit settings.byteLimit settings.retry).Leads
      (Shared.handler : Handler (Shared α)) (Backing files allowed) fun answer world =>
        (answer = .ok none ∧ Missed files world) ∨
        ∃ moment reader, answer = .ok (some reader) ∧ reader.OpenedAt files allowed settings moment ∧
          Ahead files.index moment world := by
  rw [ShardReader.open]
  refine (leads_retried settings.retry leads_probe ?_).bind fun answer => Leads.of_each ?_
  · rintro outcome world (⟨rfl, -⟩ | ⟨rfl, -⟩) <;> rfl
  rintro world ⟨attempts, outcome, ⟨rfl, hmissed⟩ | ⟨rfl, hbacking⟩, rfl⟩
  · rintro _ rfl
    exact Or.inl ⟨rfl, hmissed⟩
  dsimp only [settle]
  refine ((leads_readIndex settings.retry settings.entryLimit).from_state hbacking).bind
    fun answer => Leads.of_each ?_
  rintro world (⟨error, rfl, hnotFound, hmissed⟩ | ⟨moment, rfl, hbacked, hahead⟩)
  · dsimp only
    rw [hnotFound]
    rintro _ rfl
    exact Or.inl ⟨rfl, hmissed⟩
  · have hplan : ReadPlan.ofEntries (indexEntries moment.bytes? files.index) settings.byteLimit
        settings.entryLimit = .ok _ := ReadPlan.ofEntries_eq_ok_iff.mpr ⟨hbacked.ordered, rfl⟩
    dsimp only
    rw [hplan]
    rintro _ rfl
    exact Or.inr ⟨moment, _, rfl, ⟨rfl, hbacked, ⟨hplan, rfl⟩, rfl⟩, hahead⟩

variable {settings : ReadConfig} {moment : Memory} {reader : ShardReader}

theorem OpenedAt.holdsEntries (h : reader.OpenedAt files allowed settings moment) :
    HoldsEntries moment.bytes? reader := by
  intro entry he
  rw [h.files_eq] at he ⊢
  obtain ⟨data, hdata, block, -, hbacks⟩ := h.backed.backed entry he
  exact ⟨data, hdata, hbacks.stop_le⟩

/-- What is read are blocks that were handed over, one for each entry. -/
theorem OpenedAt.exists_blocks (h : reader.OpenedAt files allowed settings moment) :
    ∃ blocks : List Block, (∀ block ∈ blocks, allowed block) ∧
      List.Forall₂ (fun entry block => entry = OpenPair.entryAt entry.offset block)
        (indexEntries moment.bytes? files.index) blocks ∧
      (batchesOf moment.bytes? reader).flatMap Batch.copies = blocks.map BlockCopy.ofBlock := by
  have hbacked : ∀ entry ∈ indexEntries moment.bytes? files.index, ∃ block, allowed block ∧
      entry = OpenPair.entryAt entry.offset block ∧
      BlockCopy.ofEntry ((moment.bytes? files.data).getD []) entry = .ofBlock block := by
    intro entry he
    obtain ⟨data, hdata, block, hallowed, hbacks⟩ := h.backed.backed entry he
    rw [hdata]
    exact ⟨block, hallowed, hbacks.1, hbacks.ofEntry_eq⟩
  have : Nonempty Block := ⟨⟨0, 0, 0, ⟨0⟩, 0, []⟩⟩
  choose! blockOf hblocks using hbacked
  obtain ⟨-, hcopies⟩ := copies_of_openedFrom h.openedFrom h.holdsEntries
  refine ⟨(indexEntries moment.bytes? files.index).map blockOf, ?_, ?_, ?_⟩
  · intro block hblock
    obtain ⟨entry, he, rfl⟩ := List.mem_map.mp hblock
    exact (hblocks entry he).1
  · rw [List.forall₂_map_right_iff, List.forall₂_same]
    exact fun entry he => (hblocks entry he).2.1
  · rw [hcopies, indexCopies, h.files_eq, List.map_map]
    exact List.map_congr_left fun entry he => (hblocks entry he).2.2

/-- Open a shard, and if it is there, make reads one after another. -/
def openAndRead (files : ShardFiles) (settings : ReadConfig) (indices : List Nat) :
    Program (Except Error (Option (ShardReader × List (Except Error (Option Batch))))) := do
  match ← ShardReader.open files settings.entryLimit settings.byteLimit settings.retry with
  | .error error => return .error error
  | .ok none => return .ok none
  | .ok (some reader) => do
    let (answers, _) ← readEach indices reader
    return .ok (some (reader, answers))

theorem leads_openAndRead (settings : ReadConfig) (indices : List Nat) :
    (openAndRead files settings indices).Leads (Shared.handler : Handler (Shared α)) (Backing files allowed)
      fun answer world => (answer = .ok none ∧ Missed files world) ∨
        ∃ moment reader, reader.OpenedAt files allowed settings moment ∧
          Ahead files.index moment world ∧
          answer = .ok (some (reader,
            indices.map fun index => .ok (batchesOf moment.bytes? reader)[index]?)) := by
  rw [openAndRead]
  refine (leads_open settings).bind fun answer => Leads.of_each ?_
  rintro world (⟨rfl, hmissed⟩ | ⟨moment, reader, rfl, hopened, hahead⟩)
  · rintro _ rfl
    exact Or.inl ⟨rfl, hmissed⟩
  dsimp only
  have hread : (readEach indices reader).Yields (Shared.handler : Handler (Shared α))
      (Ahead files.index moment) _ :=
    yields_readEach offers_ahead (ready_of_openedFrom hopened.openedFrom hopened.holdsEntries)
  refine (hread.leads.from_state hahead).bind fun result => leads_done ?_
  rintro world ⟨hanswers, hahead⟩
  exact Or.inr ⟨moment, reader, hopened, hahead, by rw [hanswers]⟩

/-! ## One writer -/

section Writer

variable {config : WriteConfig} {range : PartitionRange} {shard : String} {writer : ShardWriter} {start : Memory}

/-- A writer that goes through requests keeps a pair of a new shard backed all the way. -/
theorem backing_of_new (hcreate : ShardWriter.create config range shard = .ok writer)
    (hnew : ∀ n, start.find? (writer.filesOf n).data = none ∧ start.find? (writer.filesOf n).index = none)
    (requests : List ShardWriter.Request) (failures : Nat → Option (IoError × Nat)) (turns : Nat → Nat)
    (n : UInt32) :
    Backing (writer.filesOf n) (· ∈ requests.flatMap ShardWriter.Request.blocks)
      ⟨ShardWriter.serve requests writer, ⟨start, failures⟩, turns, []⟩ := by
  obtain ⟨hname, hnone⟩ := ShardWriter.create_eq_ok hcreate
  have hapart : Apart writer.filesOf := ShardWriter.apart_filesOf hname
  refine ⟨ShardWriter.only_serve requests writer, ?_, fun _ hseen => nomatch hseen⟩
  rintro count _ rfl
  have hserve :=
    ShardWriter.ensures_serve hapart (ShardWriter.withstands_given hapart requests start)
  let state : Unreliable := ⟨start, failures⟩
  have hstart : Keeps writer.filesOf (· ∈ requests.flatMap ShardWriter.Request.blocks) start state.memory ∧
      writer.HasOpen state.memory :=
    ⟨ShardWriter.keeps_of_new hnew _, ShardWriter.hasOpen_of_pair_eq_none hnone⟩
  obtain ⟨⟨answers, after⟩, -, ⟨hkeeps, -⟩, -⟩ := hserve.at_steps hstart count
  exact hkeeps.backed n

/-- **A reader sees a live shard as it was at one moment.** The shard is new, its writer goes through any
requests, with any failures, and makes any number of calls before each call of the reader, which opens one of the
pairs and makes reads in any order. Either the pair counts as not there, and then a file of it was not there when
it was looked up. Or there is one moment, that at which the size of the index was taken: the reads are planned for
exactly the whole entries that the index had then, each entry is that of a block that was handed over, and every
read answers its batch, which together are these blocks with their payloads. -/
theorem snapshot_of_live_writer (hcreate : ShardWriter.create config range shard = .ok writer)
    (hnew : ∀ n, start.find? (writer.filesOf n).data = none ∧ start.find? (writer.filesOf n).index = none)
    (requests : List ShardWriter.Request) (failures : Nat → Option (IoError × Nat)) (turns : Nat → Nat)
    (n : UInt32) (settings : ReadConfig) (indices : List Nat) :
    let files := writer.filesOf n
    let run := (openAndRead files settings indices).run Shared.handler
      ⟨ShardWriter.serve requests writer, ⟨start, failures⟩, turns, []⟩
    (run.1 = .ok none ∧
      ∃ moment : Memory, ((.probe files.data, moment) ∈ run.2.seen ∧ moment.find? files.data = none) ∨
        ((.openRead files.index, moment) ∈ run.2.seen ∧ moment.find? files.index = none)) ∨
    ∃ moment, (∀ other, (.size { path := files.index }, other) ∈ run.2.seen ↔ other = moment) ∧
      ∃ (entries : List IndexEntry) (reader : ShardReader) (blocks : List Block) (batches : List Batch),
        entries = (IndexEntry.decodeAll ((moment.bytes? files.index).getD [])).1 ∧
        ReadPlan.ofEntries entries settings.byteLimit settings.entryLimit = .ok reader.reads.toList ∧
        reader.blockCount = entries.length ∧
        (∀ block ∈ blocks, block ∈ requests.flatMap ShardWriter.Request.blocks) ∧
        List.Forall₂ (fun entry block => entry = OpenPair.entryAt entry.offset block) entries blocks ∧
        batches.length = reader.readCount ∧ batches.flatMap Batch.copies = blocks.map BlockCopy.ofBlock ∧
        run.1 = .ok (some (reader, indices.map fun index => .ok batches[index]?)) := by
  intro files run
  rcases leads_openAndRead settings indices _ (backing_of_new hcreate hnew requests failures turns n) with
    hmissed | ⟨moment, reader, hopened, hahead, hrun⟩
  · exact Or.inl hmissed
  obtain ⟨blocks, hgiven, hentries, hcopies⟩ := hopened.exists_blocks
  have hplan := hopened.openedFrom.planned
  rw [hopened.files_eq] at hplan
  exact Or.inr ⟨moment, hahead.seen_iff, _, reader, blocks, batchesOf moment.bytes? reader, rfl, hplan,
    hopened.blockCount_eq, hgiven, hentries, length_batchesOf _ _, hcopies, hrun⟩

end Writer

/-! ## A reader in the middle of a batch -/

section Batches

open ShardWriter (Request writerOfNew oneByte)

/-- The second batch fails with 40 bytes of its two entries in the index. -/
def entriesCutShort : Nat → Option (IoError × Nat) := fun count =>
  if count = 9 then some (⟨.other, ""⟩, 40) else none

def threeBatches : List Request :=
  [.write [oneByte 1], .write [oneByte 2, oneByte 3], .write [oneByte 4]]

/-- The reader looks for the data file when the second batch is partly in it, and for the index's size after
that batch failed. -/
def liveRun : Except Error (Option (ShardReader × List (Except Error (Option Batch)))) ×
    Shared (List (Except Error Unit) × ShardWriter) :=
  (openAndRead (writerOfNew.filesOf 0) { retry := .fixed 0 0 } [1, 0]).run Shared.handler
    ⟨ShardWriter.serve threeBatches writerOfNew, ⟨{}, entriesCutShort⟩, fun k => [8, 0, 3, 2, 1].getD k 0, []⟩

/-- One entry of the batch that failed is whole, and its block is read. -/
theorem snapshot_of_live_writer_entriesCutShort :
    ∃ moment, (∀ other, (.size { path := (writerOfNew.filesOf 0).index }, other) ∈ liveRun.2.seen ↔
        other = moment) ∧
      (moment.bytes? (writerOfNew.filesOf 0).index).map List.length = some 76 ∧
      ∃ (reader : ShardReader) (blocks : List Block) (batches : List Batch), reader.blockCount = 2 ∧
        (∀ block ∈ blocks, block ∈ [oneByte 1, oneByte 2, oneByte 3, oneByte 4]) ∧
        batches.flatMap Batch.copies = blocks.map BlockCopy.ofBlock ∧
        liveRun.1 = .ok (some (reader, [.ok batches[1]?, .ok batches[0]?])) := by
  have hcreate : ShardWriter.create { base := .ofText "a", app := "app" } ⟨0, 0⟩ "w" = .ok writerOfNew := rfl
  have hnew : ∀ n, Memory.find? {} (writerOfNew.filesOf n).data = none ∧
      Memory.find? {} (writerOfNew.filesOf n).index = none := fun n => ⟨rfl, rfl⟩
  have hcount : liveRun.1.map (Option.map fun result => result.1.blockCount) = .ok (some 2) := by
    decide +kernel
  have hsize : ∃ look ∈ liveRun.2.seen, look.1 = .size { path := (writerOfNew.filesOf 0).index } ∧
      (look.2.bytes? (writerOfNew.filesOf 0).index).map List.length = some 76 := by
    decide +kernel
  rcases snapshot_of_live_writer hcreate hnew threeBatches entriesCutShort
      (fun k => [8, 0, 3, 2, 1].getD k 0) 0 { retry := .fixed 0 0 } [1, 0] with
    ⟨hnone, -⟩ | ⟨moment, hseen, entries, reader, blocks, batches, -, -, -, hgiven, -, -, hcopies, hrun⟩
  · change liveRun.1 = _ at hnone
    rw [hnone] at hcount
    cases hcount
  change liveRun.1 = _ at hrun
  rw [hrun] at hcount
  obtain ⟨⟨call, memory⟩, hlook, rfl, hlength⟩ := hsize
  obtain rfl := (hseen memory).mp hlook
  injection hcount with hcount
  injection hcount with hcount
  exact ⟨memory, hseen, hlength, reader, blocks, batches, hcount, hgiven, hcopies, hrun⟩

end Batches

end ShardReader

end BlockShuffle
