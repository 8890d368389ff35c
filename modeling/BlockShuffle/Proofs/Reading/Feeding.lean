import Mathlib
import BlockShuffle.Proofs.Reading.Cursor
import BlockShuffle.Proofs.Reading.Opening

/-!
# The batches a partition comes back as

On a storage that holds still, what a partition reader is going to answer is known from the start: for each
planned read, the bytes it covers and its slices, shard after shard (`batchesOf`). `Feeds` says that a
reader answers some batches from a read on and then the end of the stream, so whoever consumes a partition
can forget about shards, handles and storage; `feeds_of_ready` is the proof, by the shards that are still
ahead.

Which copies are in those batches is what the plan was about: if the data file holds every entry of the
index, they are the copies the entries point at, in order (`copies_of_openedFrom`).

The storage may change as long as it holds still where it is read (`HoldsStill`), so a memory that somebody
writes to is covered as soon as what was planned can be relied on. Failures are not: a reader that feeds answers
every read. How one goes on after a failure is in `Proofs/Reading/Resuming`, and what is answered of data that
is not there in `Proofs/Reading/Answers`; both use the same list of planned reads.

`Feeds` is a predicate by recursion on the batches, and not an equation about running a loop, since its users
interleave something of their own between two reads.
-/

set_option autoImplicit false

namespace BlockShuffle

open Storage Program

/-! ## Batches -/

namespace Batch

/-- The copies that a batch holds. -/
def copies (batch : Batch) : List BlockCopy := batch.slices.map (BlockCopy.ofSlice batch.buffer)

/-- Every listed block lies in the buffer. -/
def Whole (batch : Batch) : Prop :=
  ∀ slice ∈ batch.slices, slice.offset + slice.length ≤ batch.buffer.length

end Batch

/-- What the planned reads of a shard answer. -/
def batchesOf (files : Path → Option Bytes) (shard : ShardReader) : List Batch :=
  shard.reads.toList.map fun read => ⟨read.bytesOf ((files shard.files.data).getD []), read.slices⟩

theorem length_batchesOf (files : Path → Option Bytes) (shard : ShardReader) :
    (batchesOf files shard).length = shard.readCount := by
  rw [batchesOf, List.length_map, Array.length_toList]
  rfl

theorem length_flatMap_batchesOf (files : Path → Option Bytes) (shards : List ShardReader) :
    (shards.flatMap (batchesOf files)).length = ShardReader.total shards := by
  induction shards with
  | nil => rfl
  | cons shard shards ih =>
    rw [List.flatMap_cons, List.length_append, ih, length_batchesOf, ShardReader.total_cons]

variable {σ : Type} {handler : Handler σ} {good : σ → Prop} {files : Path → Option Bytes}

/-! ## Shards -/

namespace ShardReader

/-- A shard whose reads the data file holds, and whose handle, if it has one, is a handle to it. -/
structure Ready (handler : Handler σ) (good : σ → Prop) (files : Path → Option Bytes)
    (shard : ShardReader) : Prop where
  reads : ∀ read ∈ shard.reads.toList, ∃ data, files shard.files.data = some data ∧
    read.offset + read.length ≤ data.length
  handle : ∀ reader data, shard.data = some reader → files shard.files.data = some data →
    Holds handler good reader data

theorem yields_openData (hoffers : Offers handler good files) {shard : ShardReader}
    (h : shard.Ready handler good files) {data : Bytes} (hdata : files shard.files.data = some data) :
    shard.openData.Yields handler good
      fun answer => ∃ reader, answer = .ok reader ∧ Holds handler good reader data := by
  rw [openData]
  cases hopen : shard.data with
  | none => exact yields_retried_ok hoffers.pause shard.retryPolicy (hoffers.openRead _ _ hdata)
  | some reader => exact yields_done ⟨reader, rfl, h.handle reader data hopen hdata⟩

/-- **A planned read answers its batch**, and nothing changes for the reads behind it. -/
theorem yields_read (hoffers : Offers handler good files) {shard : ShardReader}
    (h : shard.Ready handler good files) {index : Nat} {batch : Batch}
    (hbatch : (batchesOf files shard)[index]? = some batch) :
    (shard.read index).Yields handler good fun result => result.1 = .ok (some batch) ∧
      result.2.Ready handler good files ∧ batchesOf files result.2 = batchesOf files shard := by
  rw [batchesOf, List.getElem?_map, Option.map_eq_some_iff] at hbatch
  obtain ⟨planned, hplanned, rfl⟩ := hbatch
  rw [Array.getElem?_toList] at hplanned
  obtain ⟨data, hdata, hinside⟩ := h.reads planned
    (Array.mem_toList_iff.mpr (Array.mem_of_getElem? hplanned))
  rw [ShardReader.read, hplanned]
  dsimp only
  apply (yields_openData hoffers h hdata).bind
  rintro _ ⟨reader, rfl, hholds⟩
  apply (yields_retried_eq hoffers.pause shard.retryPolicy
    (hholds.readAt planned.offset planned.length hinside)).bind
  rintro _ rfl
  apply yields_done
  refine ⟨?_, ⟨h.reads, ?_⟩, rfl⟩
  · rw [hdata]
    rfl
  · rintro reader' data' ⟨rfl⟩ hdata'
    cases hdata.symm.trans hdata'
    exact hholds

/-- Make reads one after another. -/
def readEach : List Nat → ShardReader → Program (List (Except Error (Option Batch)) × ShardReader)
  | [], shard => return ([], shard)
  | index :: rest, shard => do
    let (answer, shard) ← shard.read index
    let (answers, shard) ← readEach rest shard
    return (answer :: answers, shard)

/-- Reads in any order answer their batches, and nothing past the last. -/
theorem yields_readEach (hoffers : Offers handler good files) {indices : List Nat} :
    ∀ {shard : ShardReader}, shard.Ready handler good files →
      (readEach indices shard).Yields handler good fun result =>
        result.1 = indices.map fun index => .ok (batchesOf files shard)[index]? := by
  induction indices with
  | nil => exact fun _ => yields_done rfl
  | cons index rest ih =>
    intro shard h
    have hread : (shard.read index).Yields handler good fun result =>
        result.1 = .ok (batchesOf files shard)[index]? ∧ result.2.Ready handler good files ∧
          batchesOf files result.2 = batchesOf files shard := by
      cases hbatch : (batchesOf files shard)[index]? with
      | some batch => exact yields_read hoffers h hbatch
      | none =>
        have hpast : shard.reads[index]? = none := by
          rw [List.getElem?_eq_none_iff, length_batchesOf] at hbatch
          exact Array.getElem?_eq_none hbatch
        rw [ShardReader.read, hpast]
        exact yields_done ⟨rfl, h, rfl⟩
    rw [readEach]
    apply hread.bind
    rintro ⟨answer, shard'⟩ ⟨hanswer, hready, hsame⟩
    dsimp only at hanswer hready hsame
    apply (ih hready).bind
    rintro ⟨answers, last⟩ hanswers
    apply yields_done
    rw [List.map_cons, hanswer, ← hsame, ← hanswers]

end ShardReader

/-! ## Partitions -/

namespace PartitionReader

/-- From read number `next` on, the reader answers these batches and then the end of the stream. -/
def Feeds (handler : Handler σ) (good : σ → Prop) : List Batch → PartitionReader → Nat → Prop
  | [], reader, next => (reader.read next).Yields handler good fun result => result.1 = .ok none
  | batch :: rest, reader, next => (reader.read next).Yields handler good fun result =>
      result.1 = .ok (some batch) ∧ Feeds handler good rest result.2 (next + 1)

/-- What one read does to what is ahead: it answers the next batch, and the others stay. -/
theorem yields_read (hoffers : Offers handler good files) {reader : PartitionReader} {next : Nat}
    (hbase : reader.base ≤ next) (hready : ∀ shard ∈ reader.ahead, shard.Ready handler good files)
    {batch : Batch} {rest : List Batch}
    (hahead : (reader.ahead.flatMap (batchesOf files)).drop (next - reader.base) = batch :: rest) :
    (reader.read next).Yields handler good fun result => result.1 = .ok (some batch) ∧
      result.2.base ≤ next + 1 ∧ (∀ shard ∈ result.2.ahead, shard.Ready handler good files) ∧
      (result.2.ahead.flatMap (batchesOf files)).drop (next + 1 - result.2.base) = rest := by
  rw [PartitionReader.read, if_neg (by omega)]
  rcases advance_cases next reader.ahead reader.passed reader.base hbase with
    ⟨front, shard, others, hsplit, hle, hlt, hrun⟩ | ⟨hle, -⟩
  · rw [hrun]
    -- The batch is the shard's own, since the reads in front of it are passed.
    generalize hindex : next - (reader.base + ShardReader.total front) = index at hlt
    have hskip : next - reader.base - ShardReader.total front = index := by omega
    have hdrop := hahead
    rw [hsplit, List.flatMap_append, List.flatMap_cons, List.drop_append,
      List.drop_of_length_le (by rw [length_flatMap_batchesOf]; omega), List.nil_append,
      length_flatMap_batchesOf, hskip,
      List.drop_append_of_le_length (by rw [length_batchesOf]; omega)] at hdrop
    have hindexed : index < (batchesOf files shard).length := by
      rw [length_batchesOf]
      exact hlt
    rw [List.drop_eq_getElem_cons hindexed, List.cons_append, List.cons.injEq] at hdrop
    obtain ⟨hbatch, hrest⟩ := hdrop
    have hget : (batchesOf files shard)[index]? = some batch := by
      rw [List.getElem?_eq_getElem hindexed, hbatch]
    have hshard := hready shard (by rw [hsplit]; simp)
    apply (ShardReader.yields_read hoffers hshard hget).bind
    rintro ⟨outcome, shard'⟩ ⟨houtcome, hready', hsame⟩
    apply yields_done
    refine ⟨houtcome, by dsimp only; omega, ?_, ?_⟩
    · intro other ho
      rcases List.mem_cons.mp ho with rfl | ho
      · exact hready'
      · exact hready other (by rw [hsplit]; simp [ho])
    · have hnext : next + 1 - (reader.base + ShardReader.total front) = index + 1 := by omega
      dsimp only at hsame ⊢
      rw [List.flatMap_cons, hsame, hnext, List.drop_append_of_le_length (by omega)]
      exact hrest
  · have hlength := congrArg List.length hahead
    rw [List.length_drop, length_flatMap_batchesOf, List.length_cons] at hlength
    omega

/-- **What is ahead is what is fed.** -/
theorem feeds_of_ready (hoffers : Offers handler good files) {batches : List Batch} :
    ∀ {reader : PartitionReader} {next : Nat}, reader.base ≤ next →
      (∀ shard ∈ reader.ahead, shard.Ready handler good files) →
      (reader.ahead.flatMap (batchesOf files)).drop (next - reader.base) = batches →
      Feeds handler good batches reader next := by
  induction batches with
  | nil =>
    intro reader next hbase _ hahead
    have hend : ShardReader.total reader.ahead ≤ next - reader.base := by
      rw [← length_flatMap_batchesOf files]
      exact List.drop_eq_nil_iff.mp hahead
    rw [Feeds, PartitionReader.read, if_neg (by omega)]
    rcases advance_cases next reader.ahead reader.passed reader.base hbase with
      ⟨front, shard, others, hsplit, hle, hlt, -⟩ | ⟨-, hrun⟩
    · rw [hsplit, ShardReader.total_append, ShardReader.total_cons] at hend
      omega
    · rw [hrun]
      exact yields_done rfl
  | cons batch rest ih =>
    intro reader next hbase hready hahead
    apply (yields_read hoffers hbase hready hahead).mono
    rintro ⟨outcome, reader'⟩ ⟨houtcome, hbase', hready', hahead'⟩
    exact ⟨houtcome, ih hbase' hready' hahead'⟩

end PartitionReader

/-! ## The entries of the index -/

/-- The copies that the entries of a shard's index point at. -/
def indexCopies (files : Path → Option Bytes) (shard : ShardReader) : List BlockCopy :=
  (indexEntries files shard.files.index).map
    (BlockCopy.ofEntry ((files shard.files.data).getD []))

/-- The data file of a shard holds every entry of its index. -/
def HoldsEntries (files : Path → Option Bytes) (shard : ShardReader) : Prop :=
  ∀ entry ∈ indexEntries files shard.files.index,
    ∃ data, files shard.files.data = some data ∧ entry.stop ≤ data.length

instance (files : Path → Option Bytes) (shard : ShardReader) : Decidable (HoldsEntries files shard) :=
  decidable_of_iff (∀ entry ∈ indexEntries files shard.files.index,
    (files shard.files.data).any (fun data => entry.stop ≤ data.length) = true)
    (by simp only [HoldsEntries, Option.any_eq_true, decide_eq_true_eq])

namespace ShardReader

variable {config : ReadConfig} {shard : ShardReader}

/-- The reads of an open shard are pieces of its index, in order. -/
theorem ordered_of_openedFrom (h : shard.OpenedFrom files config) :
    ∃ pieces : List (IndexEntry × List IndexEntry),
      shard.reads.toList = pieces.map (fun piece => RangedRead.ofBatch piece.1 piece.2) ∧
      (pieces.flatMap fun piece => piece.1 :: piece.2) = indexEntries files shard.files.index ∧
      ∀ piece ∈ pieces, (piece.1 :: piece.2).Pairwise ReadPlan.Before ∧
        ∀ entry ∈ piece.1 :: piece.2, entry ∈ indexEntries files shard.files.index := by
  obtain ⟨hordered, hreads⟩ := ReadPlan.ofEntries_eq_ok_iff.mp h.planned
  obtain ⟨-, -, hpairwise⟩ := ReadPlan.checkOrdered_eq_ok_iff.mp hordered
  have hflat := ReadPlan.flatMap_pieces config.byteLimit config.entryLimit
    (indexEntries files shard.files.index)
  refine ⟨_, hreads, hflat, ?_⟩
  intro piece hp
  have hsub : (piece.1 :: piece.2).Sublist (indexEntries files shard.files.index) := by
    rw [← hflat, List.flatMap_def]
    exact List.sublist_flatten_of_mem (List.mem_map_of_mem hp)
  exact ⟨hpairwise.sublist hsub, fun entry he => hsub.subset he⟩

/-- The pieces are in the data file, if it holds every entry. -/
theorem pieces_of_openedFrom (h : shard.OpenedFrom files config) (hholds : HoldsEntries files shard) :
    ∃ pieces : List (IndexEntry × List IndexEntry),
      shard.reads.toList = pieces.map (fun piece => RangedRead.ofBatch piece.1 piece.2) ∧
      (pieces.flatMap fun piece => piece.1 :: piece.2) = indexEntries files shard.files.index ∧
      ∀ piece ∈ pieces, ∃ data, files shard.files.data = some data ∧
        (piece.1 :: piece.2).Pairwise ReadPlan.Before ∧
        ∀ entry ∈ piece.1 :: piece.2, entry.stop ≤ data.length := by
  obtain ⟨pieces, hreads, hflat, hpieces⟩ := ordered_of_openedFrom h
  refine ⟨pieces, hreads, hflat, fun piece hp => ?_⟩
  obtain ⟨hpairwise, hmem⟩ := hpieces piece hp
  obtain ⟨data, hdata, -⟩ := hholds piece.1 (hmem piece.1 List.mem_cons_self)
  refine ⟨data, hdata, hpairwise, fun entry he => ?_⟩
  obtain ⟨data', hdata', hstop⟩ := hholds entry (hmem entry he)
  cases hdata.symm.trans hdata'
  exact hstop

theorem ready_of_openedFrom (h : shard.OpenedFrom files config) (hholds : HoldsEntries files shard) :
    shard.Ready handler good files := by
  obtain ⟨pieces, hreads, -, hpiece⟩ := pieces_of_openedFrom h hholds
  constructor
  · intro read hr
    rw [hreads, List.mem_map] at hr
    obtain ⟨piece, hp, rfl⟩ := hr
    obtain ⟨data, hdata, hpair, hstop⟩ := hpiece piece hp
    exact ⟨data, hdata, (RangedRead.copies_ofBatch hpair hstop).1⟩
  · intro reader data hopen
    rw [h.unread] at hopen
    cases hopen

/-- **An open shard reads as its index says**, if its data file holds every entry. -/
theorem copies_of_openedFrom (h : shard.OpenedFrom files config) (hholds : HoldsEntries files shard) :
    (∀ batch ∈ batchesOf files shard, batch.Whole) ∧
      (batchesOf files shard).flatMap Batch.copies = indexCopies files shard := by
  obtain ⟨pieces, hreads, hflat, hpiece⟩ := pieces_of_openedFrom h hholds
  have hbatches : batchesOf files shard = pieces.map fun piece =>
      ⟨(RangedRead.ofBatch piece.1 piece.2).bytesOf ((files shard.files.data).getD []),
        (RangedRead.ofBatch piece.1 piece.2).slices⟩ := by
    rw [batchesOf, hreads, List.map_map]
    rfl
  constructor
  · intro batch hb
    rw [hbatches, List.mem_map] at hb
    obtain ⟨piece, hp, rfl⟩ := hb
    obtain ⟨data, hdata, hpair, hstop⟩ := hpiece piece hp
    rw [hdata]
    exact (RangedRead.copies_ofBatch hpair hstop).2.1
  · rw [hbatches, List.flatMap_map, indexCopies, ← hflat, List.map_flatMap]
    apply List.flatMap_congr
    intro piece hp
    obtain ⟨data, hdata, hpair, hstop⟩ := hpiece piece hp
    rw [hdata]
    exact (RangedRead.copies_ofBatch hpair hstop).2.2

end ShardReader

end BlockShuffle
