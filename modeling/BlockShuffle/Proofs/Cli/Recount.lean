import Mathlib
import BlockShuffle.Proofs.Cli.Verify
import BlockShuffle.Proofs.Reading.Listed

/-!
# What a verification counts

`verifyRange` counts what its reads come back with. They are planned, cover several blocks each, leave gaps out and go
through one shard after the other. What comes out is nevertheless a count of index entries, one by one (`recount`): the
planned reads of a shard are about all the entries of its index, each of them once (`ShardReader.flatMap_copiesIn`).

Of the failures that a verification may end with, lost data has one cause: an entry that ends behind its data file.

The recount is a function of the disk, written without a reader: it lists, keeps the pairs that count, and goes
over their entries. What a verification does instead is related to it in two steps, first from counting to the
copies that the reads come to, then from those to the entries. Nothing about how the planned reads are cut is
left behind the second step, so another way of planning would cost that step alone.

A report is right whatever the disk is like; the directories of the layout may hold anything. For the converse,
that a range whose entries all lie within their data files does get a report, the paths must lead where a reader
expects it, to directories and files or nowhere (`Disk.Regular`). A directory under the name of an index file is
a failure of its own, which is neither lost data nor corruption. What a reader leaves out is left out of the
recount too, so a report without corruption does not say that nothing was lost; `Proofs/Cli/Verify` has what it
does say.
-/

set_option autoImplicit false

namespace BlockShuffle

open Storage Program

/-! ## Counting -/

namespace Cli

/-- A report with these blocks counted as well. -/
def RangeReport.plus (report : RangeReport) (copies : List BlockCopy) : RangeReport :=
  { report with
    blocks := report.blocks + copies.length
    bytes := report.bytes + (copies.map BlockCopy.length).sum
    corrupt := report.corrupt + copies.countP fun copy => crc32 copy.payload ≠ copy.crc }

theorem RangeReport.plus_plus (report : RangeReport) (copies others : List BlockCopy) :
    (report.plus copies).plus others = report.plus (copies ++ others) := by
  simp only [plus, List.length_append, List.map_append, List.sum_append, List.countP_append, Nat.add_assoc]

/-- Counting a batch block by block is counting its blocks. -/
theorem foldl_count (batch : Batch) (report : RangeReport) :
    batch.blocks.foldl RangeReport.count report = report.plus batch.copies := by
  rw [Batch.blocks_eq_map_payload, Batch.copies]
  induction batch.slices generalizing report with
  | nil => rfl
  | cons slice slices ih =>
    rw [List.map_cons, List.foldl_cons, ih, List.map_cons, ← List.singleton_append, ← RangeReport.plus_plus]
    congr 1
    by_cases hcrc : crc32 (batch.payload slice) = slice.crc
    · simp_all [RangeReport.count, RangeReport.plus, BlockCopy.ofSlice, Batch.payload]
    · simp_all [RangeReport.count, RangeReport.plus, BlockCopy.ofSlice, Batch.payload]

variable {σ : Type} {handler : Handler σ} {s : σ} {files : Path → Option Bytes}

/-- **What is counted is what the reads come to**, all of them, or the failure of the first that fails. -/
theorem yields_countFrom_answers (h : Archive handler s files) (left : Nat) :
    ∀ {index : Nat} {reader : PartitionReader} {report : RangeReport}, reader.Level (Source.of handler s) index →
      reader.readCount ≤ left + index →
      (countFrom left index reader report).Yields handler (· = s)
        (· = (((PartitionReader.answers handler s reader.shards).drop index).mapM id).map
          fun batches => report.plus (batches.flatMap Batch.copies)) := by
  -- By the reads that may be left, with the answers from the index on as what is still to be counted.
  induction left using Nat.strong_induction_on with
  | _ left ih =>
    intro index reader report hlevel hleft
    rw [countFrom]
    apply (PartitionReader.yields_read_answers h hlevel).bind
    rintro ⟨outcome, after⟩ ⟨hlevel', hcount, hsame, houtcome⟩
    dsimp only at hlevel' hcount hsame houtcome ⊢
    cases hanswer : (PartitionReader.answers handler s reader.shards)[index]? with
    | none =>
      rw [hanswer] at houtcome
      rw [houtcome, List.drop_of_length_le (List.getElem?_eq_none_iff.mp hanswer)]
      exact yields_done rfl
    | some answer =>
      rw [hanswer] at houtcome
      obtain ⟨hlt, hget⟩ := List.getElem?_eq_some_iff.mp hanswer
      rw [houtcome, List.drop_eq_getElem_cons hlt, hget, List.mapM_cons]
      cases answer with
      | error error => exact yields_done rfl
      | ok batch =>
        cases left with
        | zero =>
          rw [PartitionReader.length_answers, ← PartitionReader.readCount_eq_total] at hlt
          omega
        | succ left =>
          apply (ih left (Nat.lt_succ_self left) (hlevel'.mono (Nat.le_succ index)) (by omega)).mono
          rintro _ rfl
          rw [hsame, foldl_count]
          simp only [RangeReport.plus_plus]
          cases ((PartitionReader.answers handler s reader.shards).drop (index + 1)).mapM id with
          | error error => rfl
          | ok batches => rfl

/-! ## The recount -/

/-- The blocks of a pair, entry by entry, with the bytes that the data file has for each. -/
def entryCopies (disk : Disk) (pair : ShardFiles) : List BlockCopy :=
  (indexEntries disk.bytes? pair.index).map (BlockCopy.ofEntry ((disk.bytes? pair.data).getD []))

/-- What there is to report of a range, counted entry by entry. -/
def recount (disk : Disk) (config : ReadConfig) : RangeReport :=
  let copies := (disk.counted config).flatMap (entryCopies disk)
  { shards := (disk.counted config).length
    blocks := copies.length
    bytes := (copies.map BlockCopy.length).sum
    corrupt := copies.countP fun copy => crc32 copy.payload ≠ copy.crc }

/-- An entry of a pair that counts ends behind its data file. -/
def CutOff (disk : Disk) (config : ReadConfig) : Prop :=
  ∃ pair ∈ disk.counted config, ∃ entry ∈ indexEntries disk.bytes? pair.index, ∃ data,
    disk.bytes? pair.data = some data ∧ data.length < entry.stop

instance (disk : Disk) (config : ReadConfig) : Decidable (CutOff disk config) :=
  decidable_of_iff (∃ pair ∈ disk.counted config, ∃ entry ∈ indexEntries disk.bytes? pair.index,
      (disk.bytes? pair.data).any (fun data => data.length < entry.stop) = true)
    (by simp only [CutOff, Option.any_eq_true, decide_eq_true_eq])

variable {disk : Disk} {config : ReadConfig} {shards : List ShardReader}

/-- What a verification comes to: nothing that opens, or the count of what the shards that open have. -/
theorem verifyRange_cases (disk : Disk) (hcheck : config.check = .ok ()) :
    ((∃ error, ((verifyRange config).run Disk.handler disk).1 = .error error) ∧ ¬ disk.Regular config) ∨
    ∃ shards : List ShardReader, shards.map ShardReader.files = disk.counted config ∧
      (∀ shard ∈ shards, shard.OpenedFrom disk.bytes? config) ∧
      ((verifyRange config).run Disk.handler disk).1 =
        ((PartitionReader.planned shards).mapM (PartitionReader.fetch Disk.handler disk)).map
          fun batches => RangeReport.plus { shards := shards.length } (batches.flatMap Batch.copies) := by
  obtain ⟨outcome, houtcomes⟩ := Disk.exists_outcomes disk config
  have harchive := disk.archive
  have hopens := PartitionReader.yields_open_eq harchive hcheck houtcomes.opens
  -- Opening is a function of what is on the disk, so whether it fails is decided before anything is read.
  cases hshards : PartitionReader.shardsIn outcome (listingOf Disk.handler disk config.retry) config.partitionDirs with
  | error error =>
    left
    rw [hshards] at hopens
    constructor
    · suffices h : (verifyRange config).Yields Disk.handler (· = disk) (· = .error error) from ⟨error, (h disk rfl).1⟩
      rw [verifyRange]
      apply hopens.bind
      rintro _ rfl
      exact yields_done rfl
    · intro hregular
      obtain ⟨shards, hsome⟩ := Disk.exists_shards_of_regular houtcomes hregular
      cases hshards.symm.trans hsome
  | ok shards =>
    right
    rw [hshards] at hopens
    have hopened : ∀ shard ∈ shards, shard.OpenedFrom disk.bytes? config := by
      intro shard hshard
      obtain ⟨pair, hpair⟩ := PartitionReader.exists_pair_of_shardsIn hshards hshard
      exact houtcomes.openedFrom pair shard hpair
    have hlisting : ∀ dir, (listingOf Disk.handler disk config.retry dir).toOption = (disk.list dir).toOption :=
      fun dir => toOption_settle
    refine ⟨shards, ?_, hopened, ?_⟩
    · rw [PartitionReader.files_of_shardsIn houtcomes.files hshards]
      simp only [hlisting]
      rfl
    · have hlevel : (PartitionReader.ofShards shards).Level (Source.of Disk.handler disk) 0 :=
        PartitionReader.level_ofShards fun shard hshard => (hopened shard hshard).unread
      suffices h : (verifyRange config).Yields Disk.handler (· = disk) (· = _) from (h disk rfl).1
      rw [verifyRange]
      apply hopens.bind
      rintro _ rfl
      apply (yields_countFrom_answers harchive _ hlevel (Nat.le_refl _)).mono
      rintro _ rfl
      rw [List.drop_zero, PartitionReader.answers, List.mapM_map]
      rfl

/-- What is read of shards is what there is to recount. -/
theorem plus_eq_recount (hfiles : shards.map ShardReader.files = disk.counted config)
    (hopened : ∀ shard ∈ shards, shard.OpenedFrom disk.bytes? config) {batches : List Batch}
    (h : (PartitionReader.planned shards).mapM (PartitionReader.fetch Disk.handler disk) = .ok batches) :
    RangeReport.plus { shards := shards.length } (batches.flatMap Batch.copies) = recount disk config := by
  have heach : batches.map Batch.copies = (PartitionReader.planned shards).map fun read =>
      read.2.copiesIn ((disk.bytes? read.1.files.data).getD []) := by
    refine map_of_mapM (fun read hread batch hbatch => ?_) h
    obtain ⟨shard, planned⟩ := read
    obtain ⟨hshard, hplanned⟩ := PartitionReader.mem_planned.mp hread
    rw [Disk.eq_of_fetch hbatch]
    exact RangedRead.copies_eq_copiesIn (ShardReader.inside_of_openedFrom (hopened shard hshard) hplanned) _
  have hcopies : batches.flatMap Batch.copies = (disk.counted config).flatMap (entryCopies disk) := by
    rw [List.flatMap_def, heach, ← List.flatMap_def, PartitionReader.planned, List.flatMap_assoc, ← hfiles,
      List.flatMap_map]
    apply List.flatMap_congr
    intro shard hshard
    rw [List.flatMap_map]
    exact ShardReader.flatMap_copiesIn (hopened shard hshard) ((disk.bytes? shard.files.data).getD [])
  rw [hcopies, recount, ← hfiles, List.length_map]
  simp only [RangeReport.plus, Nat.zero_add]

/-- An entry is cut off just if a planned read is. -/
theorem cutOff_iff (hfiles : shards.map ShardReader.files = disk.counted config)
    (hopened : ∀ shard ∈ shards, shard.OpenedFrom disk.bytes? config) :
    CutOff disk config ↔ ∃ read ∈ PartitionReader.planned shards, ∃ data,
      disk.bytes? read.1.files.data = some data ∧ data.length < read.2.offset + read.2.length := by
  rw [CutOff, ← hfiles]
  constructor
  · rintro ⟨pair, hpair, entry, hentry, data, hdata, hpast⟩
    obtain ⟨shard, hshard, rfl⟩ := List.mem_map.mp hpair
    obtain ⟨planned, hplanned, hpast⟩ :=
      (ShardReader.exists_past_iff (hopened shard hshard) data.length).mpr ⟨entry, hentry, hpast⟩
    exact ⟨(shard, planned), PartitionReader.mem_planned.mpr ⟨hshard, hplanned⟩, data, hdata, hpast⟩
  · rintro ⟨⟨shard, planned⟩, hread, data, hdata, hpast⟩
    obtain ⟨hshard, hplanned⟩ := PartitionReader.mem_planned.mp hread
    obtain ⟨entry, hentry, hpast⟩ :=
      (ShardReader.exists_past_iff (hopened shard hshard) data.length).mp ⟨planned, hplanned, hpast⟩
    exact ⟨shard.files, List.mem_map_of_mem hshard, entry, hentry, data, hdata, hpast⟩

/-- **A report of a range is a count of its index entries, one by one**, and a range that is not reported on has lost
data just if one of them ends behind its data file. -/
theorem verifyRange_recounts (hcheck : config.check = .ok ()) :
    let outcome := ((verifyRange config).run Disk.handler disk).1
    (∀ report, outcome = .ok report → report = recount disk config) ∧
    (disk.Regular config →
      ((∃ loss, outcome = .error (.dataLoss loss)) ↔ CutOff disk config) ∧
      (¬ CutOff disk config → outcome = .ok (recount disk config))) := by
  intro outcome
  rcases verifyRange_cases disk hcheck with ⟨⟨error, herror⟩, hirregular⟩ | ⟨shards, hfiles, hopened, hrun⟩
  · refine ⟨fun report hreport => ?_, fun h => absurd h hirregular⟩
    cases herror.symm.trans hreport
  have hreport : ∀ report, outcome = .ok report → report = recount disk config := by
    intro report hreport
    have hmapped := hrun.symm.trans hreport
    cases hbatches : (PartitionReader.planned shards).mapM (PartitionReader.fetch Disk.handler disk) with
    | error error =>
      rw [hbatches] at hmapped
      cases hmapped
    | ok batches =>
      rw [hbatches] at hmapped
      cases hmapped
      exact plus_eq_recount hfiles hopened hbatches
  refine ⟨hreport, fun hregular => ?_⟩
  have hdata : ∀ read ∈ PartitionReader.planned shards, ∃ data, disk.bytes? read.1.files.data = some data := by
    rintro ⟨shard, planned⟩ hread
    apply hregular.exists_data
    rw [← hfiles]
    exact List.mem_map_of_mem (PartitionReader.mem_planned.mp hread).1
  have hwhole : ¬ CutOff disk config → outcome = .ok (recount disk config) := by
    intro hwhole
    rw [cutOff_iff hfiles hopened] at hwhole
    push Not at hwhole
    have hfetch : ∀ read ∈ PartitionReader.planned shards,
        ∃ batch, PartitionReader.fetch Disk.handler disk read = .ok batch := by
      intro read hread
      obtain ⟨data, hsome⟩ := hdata read hread
      exact (Disk.fetch_file hsome).1 (hwhole read hread data hsome)
    obtain ⟨batches, hbatches⟩ := exists_mapM hfetch
    have hok : outcome = .ok _ := hrun.trans (by rw [hbatches]; rfl)
    rw [hok, hreport _ hok]
  refine ⟨⟨?_, fun hcut => ?_⟩, hwhole⟩
  · rintro ⟨loss, hloss⟩
    by_contra hnot
    cases hloss.symm.trans (hwhole hnot)
  · obtain ⟨read, hread, data, hsome, hpast⟩ := (cutOff_iff hfiles hopened).mp hcut
    obtain ⟨_, hlost⟩ := (Disk.fetch_file hsome).2 hpast
    cases hbatches : (PartitionReader.planned shards).mapM (PartitionReader.fetch Disk.handler disk) with
    | ok batches =>
      obtain ⟨batch, -, hbatch⟩ := (exists_mem_of_mapM hbatches).1 read hread
      cases hlost.symm.trans hbatch
    | error error =>
      -- It is not this read that fails, but the first that does, and that has lost its data as well.
      obtain ⟨first, hfirst, herror⟩ := exists_error_of_mapM hbatches
      obtain ⟨data, hsome⟩ := hdata first hfirst
      rcases Nat.lt_or_ge data.length (first.2.offset + first.2.length) with hpast | hinside
      · obtain ⟨loss, hlost⟩ := (Disk.fetch_file hsome).2 hpast
        cases herror.symm.trans hlost
        exact ⟨loss, hrun.trans (by rw [hbatches]; rfl)⟩
      · obtain ⟨batch, hbatch⟩ := (Disk.fetch_file hsome).1 hinside
        cases herror.symm.trans hbatch

/-- Two blocks with a byte between them, the second not the one that its entry says. Of the next pair the data file is
missing, and the index of the third goes back to the start. -/
def sparseDisk : Disk := diskWith [
  ("b/app/0/0-0/w_0.data", [97, 98, 99]),
  ("b/app/0/0-0/w_0.index", (entryOf [97] 0).encode ++ (entryOf [100] 2).encode),
  ("b/app/0/0-0/w_1.index", (entryOf [97] 0).encode),
  ("b/app/0/0-0/w_2.data", [97]),
  ("b/app/0/0-0/w_2.index", (entryOf [97] 0).encode ++ (entryOf [97] 0).encode)]

/-- Two blocks, and only the first of them. -/
def shortDisk : Disk := diskWith [
  ("b/app/0/0-0/w_0.data", [97]),
  ("b/app/0/0-0/w_0.index", (entryOf [97] 0).encode ++ (entryOf [98] 1).encode)]

theorem verifyRange_recounts_sparse :
    let config := onePartition.config ⟨0, 0⟩
    ((verifyRange config).run Disk.handler sparseDisk).1 = .ok ⟨1, 2, 2, 1⟩ ∧
      ∃ loss, ((verifyRange config).run Disk.handler shortDisk).1 = .error (.dataLoss loss) := by
  intro config
  have hcheck : config.check = .ok () := rfl
  have hregular : sparseDisk.Regular config ∧ ¬ CutOff sparseDisk config := by decide +kernel
  have hshort : shortDisk.Regular config ∧ CutOff shortDisk config := by decide +kernel
  have hrecount : recount sparseDisk config = ⟨1, 2, 2, 1⟩ := by decide +kernel
  constructor
  · rw [← hrecount]
    exact ((verifyRange_recounts hcheck).2 hregular.1).2 hregular.2
  · exact ((verifyRange_recounts hcheck).2 hshort.1).1.mpr hshort.2

end Cli

end BlockShuffle
