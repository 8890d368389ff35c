import Mathlib
import BlockShuffle.Cli.Check
import BlockShuffle.Proofs.Layout
import BlockShuffle.Proofs.PartitionRange
import BlockShuffle.Proofs.Reading.Answers
import BlockShuffle.Proofs.Reading.Finding

/-!
# What a passed verification says

`verify` is a reader that counts. So it checks what a reader would be given: the blocks of the pairs that open.
That is everything for those pairs (`verify_checks_opened`): no read may fail, so each entry of the index has
its bytes in the data file, and no block may count as corrupt, so they are the bytes whose checksum the entry
has.

Of the other pairs it checks nothing. A pair whose data file is missing, or whose index is out of order, counts
as not there for every reader, and verification passes over it (`verify_passes_over_missing_data`): blocks that
an index lists and that cannot be read by anybody are reported as a shuffle that is in order. That is a defect
of verification and not of reading. A client that reads has other roots to find a block in, and a check of
completeness behind it, so leaving out a pair costs it nothing that goes unnoticed; verification is there to
check every block, has neither, and passes where inspecting the same index says what is missing.
`verify_checks_opened` is therefore the condition under which its answer may be relied on.

The disk is a tree of directories and regular files (`Storage/Disk`). Links are left out, and with them the
question which of them a listing shows; nothing is said about anybody who writes while the shuffle is verified.
-/

set_option autoImplicit false

namespace BlockShuffle

open Storage Program

/-! ## One after the other -/

/-- What is done for each of a list is done for every one of them. -/
theorem Storage.Program.yields_mapM {σ α β : Type} {handler : Handler σ} {good : σ → Prop} {f : α → Program β}
    {post : α → β → Prop} {list : List α} (h : ∀ a ∈ list, (f a).Yields handler good (post a)) :
    (list.mapM f).Yields handler good fun found => ∀ a ∈ list, ∃ b ∈ found, post a b := by
  induction list with
  | nil => exact yields_done (List.forall_mem_nil _)
  | cons a list ih =>
    rw [List.forall_mem_cons] at h
    rw [List.mapM_cons]
    apply h.1.bind
    intro b hb
    apply (ih h.2).bind
    intro found hfound
    apply yields_done
    rw [List.forall_mem_cons]
    refine ⟨⟨b, List.mem_cons_self, hb⟩, fun a' ha' => ?_⟩
    obtain ⟨b', hmem, hb'⟩ := hfound a' ha'
    exact ⟨b', List.mem_cons_of_mem b hmem, hb'⟩

/-! ## Counting -/

/-- Every block of the batch has the checksum that is listed for it. -/
def Batch.Intact (batch : Batch) : Prop := ∀ slice ∈ batch.slices, crc32 (batch.payload slice) = slice.crc

namespace Cli

variable {σ : Type} {handler : Handler σ} {good : σ → Prop} {budget : σ → Nat} {source : Source}

/-- Nothing is corrupt behind a batch if nothing was in front of it and the batch is intact. -/
theorem corrupt_foldl_count {batch : Batch} {report : RangeReport} :
    (batch.blocks.foldl RangeReport.count report).corrupt = 0 ↔ report.corrupt = 0 ∧ batch.Intact := by
  rw [Batch.blocks_eq_map_payload, Batch.Intact]
  induction batch.slices generalizing report with
  | nil => simp
  | cons slice slices ih =>
    rw [List.map_cons, List.foldl_cons, ih, List.forall_mem_cons, RangeReport.count]
    dsimp only
    split
    · rename_i hcrc
      simp [hcrc]
    · rename_i hcrc
      simp [hcrc]

/-- **What was counted without a failure was read, every read of it**, and if nothing counts as corrupt it was
intact. -/
theorem yields_countFrom (hdraws : Draws handler good budget source) (left : Nat) :
    ∀ {index : Nat} {reader : PartitionReader} {report : RangeReport}, reader.Level source index →
      reader.readCount ≤ left + index →
      (countFrom left index reader report).Yields handler good fun outcome =>
        ∀ final, outcome = .ok final → final.corrupt = 0 → report.corrupt = 0 ∧
          ∀ k, index ≤ k → k < reader.readCount →
            ∃ batch, PartitionReader.gives source reader.shards k = some (some batch) ∧ batch.Intact := by
  -- By the reads that may be left. Nothing is ever taken back from the count of corrupt blocks, so if it is zero at
  -- the end it was zero at each batch.
  induction left using Nat.strong_induction_on with
  | _ left ih =>
    intro index reader report hlevel hleft
    rw [countFrom]
    apply (PartitionReader.yields_read_gives hdraws hlevel).bind
    rintro ⟨outcome, after⟩ ⟨hlevel', hcount, hgives, ⟨_ | batch, hvalue, rfl⟩ | ⟨error, rfl⟩⟩
    · apply yields_done
      rintro final ⟨⟩ hzero
      refine ⟨hzero, fun k hk hlt => absurd hvalue (PartitionReader.gives_ne_end ?_)⟩
      rw [← PartitionReader.readCount_eq_total]
      omega
    · dsimp only at hlevel' hcount hgives ⊢
      cases left with
      | zero =>
        apply yields_done
        rintro final ⟨⟩ hzero
        refine ⟨(corrupt_foldl_count.mp hzero).1, fun k hk hlt => ?_⟩
        omega
      | succ left =>
        apply (ih left (Nat.lt_succ_self left) (hlevel'.mono (Nat.le_succ index)) (by omega)).mono
        rintro outcome hall final hfinal hzero
        obtain ⟨hfold, hrest⟩ := hall final hfinal hzero
        obtain ⟨hbefore, hintact⟩ := corrupt_foldl_count.mp hfold
        refine ⟨hbefore, fun k hk hlt => ?_⟩
        rcases Nat.eq_or_lt_of_le hk with rfl | hk
        · exact ⟨batch, hvalue, hintact⟩
        · obtain ⟨later, hlater, hok⟩ := hrest k hk (hcount.symm ▸ hlt)
          exact ⟨later, (hgives k).symm.trans hlater, hok⟩
    · apply yields_done
      rintro final ⟨⟩

end Cli

/-! ## One entry -/

namespace Disk

variable {disk : Disk} {path : Path}

/-- The data file has the bytes of an entry, and they are those whose checksum it has. -/
def HasBlock (disk : Disk) (data : Path) (entry : IndexEntry) : Prop :=
  ∃ bytes, disk.bytes? data = some bytes ∧ entry.stop ≤ bytes.length ∧
    crc32 ((bytes.drop entry.offset.toNat).take entry.length.toNat) = entry.crc

instance (disk : Disk) (data : Path) (entry : IndexEntry) : Decidable (disk.HasBlock data entry) :=
  decidable_of_iff
    ((disk.bytes? data).any (fun bytes => entry.stop ≤ bytes.length ∧
      crc32 ((bytes.drop entry.offset.toNat).take entry.length.toNat) = entry.crc) = true)
    (by simp only [HasBlock, Option.any_eq_true, decide_eq_true_eq])

/-- An entry that was checked. Where a directory has the name of the data file there are no bytes, and the entry may
want none. -/
def Checked (disk : Disk) (data : Path) (entry : IndexEntry) : Prop :=
  disk.HasBlock data entry ∨ disk.isDirectory data = true ∧ entry.length = 0 ∧ crc32 [] = entry.crc

/-- **An intact read has checked the entries that it was planned for.** -/
theorem checked_of_intact {first : IndexEntry} {rest : List IndexEntry}
    (hordered : (first :: rest).Pairwise ReadPlan.Before) {reader : Reader} {buffer : Bytes}
    (hreader : (Source.of Disk.handler disk).reader path = some reader)
    (hbuffer : (Source.of Disk.handler disk).bytes reader (RangedRead.ofBatch first rest).offset
      (RangedRead.ofBatch first rest).length = some buffer)
    (hintact : Batch.Intact ⟨buffer, (RangedRead.ofBatch first rest).slices⟩) {entry : IndexEntry}
    (he : entry ∈ first :: rest) : disk.Checked path entry := by
  obtain ⟨hstart, hstop⟩ := RangedRead.bounds_ofBatch hordered he
  have hcrc := hintact (BlockSlice.ofEntry first.offset.toNat entry) (List.mem_map_of_mem he)
  rcases fetched_cases hreader hbuffer with ⟨data, hdata, hinside, rfl⟩ | ⟨hdir, hempty, rfl⟩
  · left
    have hlast : ∀ other ∈ first :: rest, other.stop ≤ data.length := by
      intro other ho
      have hspan := (RangedRead.bounds_ofBatch hordered ho).2
      simp only [RangedRead.ofBatch] at hinside
      omega
    have hcopies := (RangedRead.copies_ofBatch hordered hlast).2.2
    rw [RangedRead.ofBatch, List.map_map] at hcopies
    have hpayload := congrArg BlockCopy.payload (List.map_inj_left.mp hcopies entry he)
    exact ⟨data, hdata, hlast entry he, (congrArg crc32 hpayload.symm).trans hcrc⟩
  · right
    have hnone : entry.length.toNat = 0 := by
      simp only [RangedRead.ofBatch] at hempty
      rw [IndexEntry.stop] at hstop
      omega
    have hpayload : Batch.payload ⟨[], (RangedRead.ofBatch first rest).slices⟩
        (BlockSlice.ofEntry first.offset.toNat entry) = [] := by
      rw [Batch.payload, List.drop_nil, List.take_nil]
    rw [hpayload] at hcrc
    exact ⟨hdir, UInt32.toNat_inj.mp hnone, hcrc⟩

/-- An open shard all of whose reads are intact has checked its index. -/
theorem checked_of_gives {config : ReadConfig} {shard : ShardReader} (h : shard.OpenedFrom disk.bytes? config)
    (hgives : ∀ i, i < shard.readCount →
      ∃ batch, shard.gives (Source.of Disk.handler disk) i = some batch ∧ batch.Intact) :
    ∀ entry ∈ indexEntries disk.bytes? shard.files.index, disk.Checked shard.files.data entry := by
  intro entry hentry
  obtain ⟨pieces, hreads, hflat, hpieces⟩ := ShardReader.ordered_of_openedFrom h
  rw [← hflat] at hentry
  obtain ⟨piece, hpiece, he⟩ := List.mem_flatMap.mp hentry
  have hread : RangedRead.ofBatch piece.1 piece.2 ∈ shard.reads.toList := by
    rw [hreads]
    exact List.mem_map_of_mem hpiece
  obtain ⟨i, hi, hplanned⟩ := Array.getElem_of_mem (Array.mem_toList_iff.mp hread)
  obtain ⟨batch, hbatch, hintact⟩ := hgives i hi
  rw [ShardReader.gives, Array.getElem?_eq_getElem hi, hplanned] at hbatch
  simp only [Option.bind_eq_bind, Option.bind_some, Option.bind_eq_some_iff] at hbatch
  obtain ⟨reader, hreader, buffer, hbuffer, ⟨⟩⟩ := hbatch
  exact checked_of_intact (hpieces piece hpiece).1 hreader hbuffer hintact he

end Disk

/-! ## One range -/

namespace Cli

/-- What a verification that passes says of a listed pair: it was passed over, because its data file is missing or its
index is out of order, or all of its entries were checked. -/
def SkippedOrChecked (disk : Disk) (pair : ShardFiles) : Prop :=
  disk.probe pair.data = .ok false ∨
  ReadPlan.checkOrdered 0 (indexEntries disk.bytes? pair.index) ≠ .ok () ∨
  ∀ entry ∈ indexEntries disk.bytes? pair.index, disk.Checked pair.data entry

/-- All the pairs that are listed where the settings look for them were passed over or checked. -/
def RangeChecked (disk : Disk) (config : ReadConfig) : Prop :=
  ∀ dir ∈ config.partitionDirs, ∀ listing, disk.list dir = .ok listing →
    ∀ path ∈ listing, ∀ pair, ShardFiles.ofIndex? path = some pair → SkippedOrChecked disk pair

/-- A pair that was looked at was passed over or is checked, if the shard that it came to was read and is intact. -/
theorem skippedOrChecked_of_outcomeOf {disk : Disk} {pair : ShardFiles} {config : ReadConfig}
    {found : Except Error (Option (List IndexEntry))}
    (hentries : ∀ entries, found = .ok (some entries) → entries = indexEntries disk.bytes? pair.index)
    (hnone : found = .ok none → disk.probe pair.data = .ok false ∨ disk.bytes? pair.index = none)
    {shard? : Option ShardReader}
    (houtcome : ShardReader.outcomeOf pair config.retry config.entryLimit config.byteLimit found = .ok shard?)
    (hgives : ∀ shard, shard? = some shard → ∀ i, i < shard.readCount →
      ∃ batch, shard.gives (Source.of Disk.handler disk) i = some batch ∧ batch.Intact) :
    SkippedOrChecked disk pair := by
  cases shard? with
  | some shard =>
    obtain ⟨hfiles, hopened⟩ := ShardReader.openedFrom_of_outcomeOf hentries houtcome
    subst hfiles
    exact Or.inr (Or.inr (Disk.checked_of_gives hopened (hgives shard rfl)))
  | none =>
    rcases found with error | _ | entries
    · cases houtcome
    · rcases hnone rfl with hmissing | hnofile
      · exact Or.inl hmissing
      · right
        right
        rw [indexEntries_of_none hnofile]
        exact List.forall_mem_nil _
    · right
      left
      rw [← hentries entries rfl]
      exact ShardReader.ofEntries?_eq_none (Except.ok.inj houtcome)

/-- **A range without corrupt blocks is one whose pairs were all passed over or checked.** -/
theorem yields_verifyRange (disk : Disk) (config : ReadConfig) :
    (verifyRange config).Yields Disk.handler (· = disk) fun outcome =>
      ∀ report, outcome = .ok report → report.corrupt = 0 → RangeChecked disk config := by
  rw [verifyRange]
  cases hcheck : config.check with
  | error fault =>
    rw [PartitionReader.open, hcheck]
    apply yields_done
    rintro report ⟨⟩
  | ok _ =>
    have harchive := Disk.archive disk
    choose found hopen hentries hnone using ShardReader.exists_found harchive config.retry
    apply (PartitionReader.yields_open_eq harchive hcheck fun pair =>
      hopen pair config.entryLimit config.byteLimit).bind
    rintro _ rfl
    cases hshards : PartitionReader.shardsIn
        (fun pair => ShardReader.outcomeOf pair config.retry config.entryLimit config.byteLimit (found pair))
        (listingOf Disk.handler disk config.retry) config.partitionDirs with
    | error error =>
      apply yields_done
      rintro report ⟨⟩
    | ok shards =>
      have hlevel : (PartitionReader.ofShards shards).Level (Source.of Disk.handler disk) 0 := by
        refine PartitionReader.level_ofShards fun shard hshard => ?_
        obtain ⟨pair, hpair⟩ := PartitionReader.exists_pair_of_shardsIn hshards hshard
        exact (ShardReader.openedFrom_of_outcomeOf (hentries pair) hpair).2.unread
      apply (yields_countFrom (harchive.holdsStill.draws rfl) _ hlevel (Nat.le_refl _)).mono
      intro outcome hall report hreport hzero
      obtain ⟨-, hgives⟩ := hall report hreport hzero
      intro dir hdir listing hlist path hpath pair hpair
      have hlisting : listingOf Disk.handler disk config.retry dir = .ok listing :=
        congrArg (settle (config.retry.maxRetries + 1)) hlist
      obtain ⟨shard?, houtcome, hamong⟩ :=
        PartitionReader.exists_outcome_of_shardsIn hshards hdir hlisting hpath hpair
      refine skippedOrChecked_of_outcomeOf (hentries pair) (hnone pair) houtcome fun shard hshard i hi => ?_
      -- A read of the shard is one of the partition's, and those were all made.
      obtain ⟨k, hk, hread⟩ := PartitionReader.exists_gives_of_mem (hamong shard hshard) hi
      obtain ⟨batch, hbatch, hintact⟩ :=
        hgives k (Nat.zero_le k) (by rwa [PartitionReader.readCount_eq_total])
      obtain ⟨_, hbatch, ⟨⟩⟩ := Option.map_eq_some_iff.mp (hread.symm.trans hbatch)
      exact ⟨batch, hbatch, hintact⟩

/-! ## All ranges -/

/-- What verification says of a range is in order only if nothing in it counts as corrupt. -/
theorem corrupt_of_rangeLine {range : PartitionRange} {outcome : Except Error RangeReport}
    (h : (rangeLine range outcome).1 = true) : ∃ report, outcome = .ok report ∧ report.corrupt = 0 := by
  cases outcome with
  | error error => cases h
  | ok report => exact ⟨report, rfl, beq_iff_eq.mp h⟩

/-- The settings that read a range look for it where it is. -/
theorem partitionDirs_config {options : VerifyOptions} {range : PartitionRange}
    (hrange : range ∈ PartitionRange.all options.partitions options.perRange) :
    (options.config range).partitionDirs =
      [Layout.partitionDir ⟨options.base, options.app, options.shuffle⟩ range] :=
  congrArg (fun range => [Layout.partitionDir ⟨options.base, options.app, options.shuffle⟩ range])
    (PartitionRange.range_config hrange)

theorem yields_verify (disk : Disk) (options : VerifyOptions) :
    (verify options).Yields Disk.handler (· = disk) fun report => report.exitCode = 0 →
      ∀ range ∈ PartitionRange.all options.partitions options.perRange, RangeChecked disk (options.config range) := by
  have hline : ∀ range ∈ PartitionRange.all options.partitions options.perRange,
      (do return rangeLine range (← verifyRange (options.config range))).Yields Disk.handler (· = disk)
        fun line => line.1 = true → RangeChecked disk (options.config range) := by
    intro range _
    apply (yields_verifyRange disk (options.config range)).bind
    intro outcome hchecked
    apply yields_done
    intro hline
    obtain ⟨report, houtcome, hzero⟩ := corrupt_of_rangeLine hline
    exact hchecked report houtcome hzero
  rw [verify]
  apply (yields_mapM hline).bind
  intro lines hlines
  apply yields_done
  intro hexit range hrange
  obtain ⟨line, hmem, hchecked⟩ := hlines range hrange
  apply hchecked
  -- Any line that is not in order makes the exit code one.
  have hall : lines.all (·.1) = true := by
    by_contra hnot
    dsimp only at hexit
    rw [if_neg hnot] at hexit
    cases hexit
  exact List.all_eq_true.mp hall line hmem

/-- **A shuffle that passes verification was checked as far as it can be read**: of every pair that is listed for one
of its ranges, the data file has the block of every entry. Only pairs that no reader opens are passed over. -/
theorem verify_checks_opened {disk : Disk} {options : VerifyOptions}
    (h : ((verify options).run Disk.handler disk).1.exitCode = 0) {range : PartitionRange}
    (hrange : range ∈ PartitionRange.all options.partitions options.perRange) {listing : List Path}
    (hlist : disk.list (Layout.partitionDir ⟨options.base, options.app, options.shuffle⟩ range) = .ok listing)
    {path : Path} (hpath : path ∈ listing) {pair : ShardFiles} (hpair : ShardFiles.ofIndex? path = some pair) :
    SkippedOrChecked disk pair := by
  have hchecked := (yields_verify disk options disk rfl).1 h range hrange
  rw [RangeChecked, partitionDirs_config hrange] at hchecked
  exact hchecked _ List.mem_cons_self listing hlist path hpath pair hpair

/-! ## A block that is checked, and blocks that are not -/

/-- One range of one partition. -/
def onePartition : VerifyOptions := ⟨.ofText "b", "app", 0, 1, 1⟩

/-- A disk with these files. -/
def diskWith (files : List (String × Bytes)) : Disk :=
  files.foldl (fun disk (name, bytes) =>
    (disk.put (.ofText name) ((Contents.ofBytes? bytes).getD .empty)).2) {}

def entryOf (payload : Bytes) (offset : UInt64) : IndexEntry :=
  ⟨UInt32.ofNat payload.length, UInt32.ofNat payload.length, crc32 payload, ⟨0⟩, 0, offset⟩

def oneBlockDisk : Disk := diskWith [
  ("b/app/0/0-0/w_0.data", [97]),
  ("b/app/0/0-0/w_0.index", (entryOf [97] 0).encode)]

def oneBlockPair : ShardFiles :=
  ⟨"w", 0, .ofText "b/app/0/0-0/w_0.data", .ofText "b/app/0/0-0/w_0.index"⟩

/-- The pair is there and in order, so its block was checked. -/
theorem verify_checks_opened_oneBlock :
    ((verify onePartition).run Disk.handler oneBlockDisk).1.exitCode = 0 ∧
      oneBlockDisk.HasBlock oneBlockPair.data (entryOf [97] 0) := by
  have hexit : ((verify onePartition).run Disk.handler oneBlockDisk).1.exitCode = 0 := by decide +kernel
  have hrange : ⟨0, 0⟩ ∈ PartitionRange.all onePartition.partitions onePartition.perRange := by decide +kernel
  have hlist : oneBlockDisk.list
      (Layout.partitionDir ⟨onePartition.base, onePartition.app, onePartition.shuffle⟩ ⟨0, 0⟩) =
        .ok [oneBlockPair.data, oneBlockPair.index] := by decide +kernel
  have hpair : ShardFiles.ofIndex? oneBlockPair.index = some oneBlockPair := by decide +kernel
  have hentry : entryOf [97] 0 ∈ indexEntries oneBlockDisk.bytes? oneBlockPair.index := by decide +kernel
  have hexamined : oneBlockDisk.probe oneBlockPair.data ≠ .ok false ∧
      ReadPlan.checkOrdered 0 (indexEntries oneBlockDisk.bytes? oneBlockPair.index) = .ok () ∧
      oneBlockDisk.isDirectory oneBlockPair.data = false := by decide +kernel
  obtain ⟨hpresent, hordered, hfile⟩ := hexamined
  refine ⟨hexit, ?_⟩
  rcases verify_checks_opened hexit hrange hlist (List.mem_cons_of_mem _ List.mem_cons_self) hpair with
    hmissing | hdisordered | hchecked
  · exact absurd hmissing hpresent
  · exact absurd hordered hdisordered
  · rcases hchecked _ hentry with hblock | ⟨hdirectory, -⟩
    · exact hblock
    · rw [hfile] at hdirectory
      cases hdirectory

/-- Three pairs without their blocks: the data file of the first is missing, the index of the second goes back to the
start after an entry that is not in its data file, and the third has a directory for a data file. -/
def overlookedDisk : Disk := diskWith [
  ("b/app/0/0-0/w_0.index", (entryOf [97] 0).encode),
  ("b/app/0/0-0/w_1.data", [97]),
  ("b/app/0/0-0/w_1.index", (entryOf [97] 5).encode ++ (entryOf [97] 0).encode),
  ("b/app/0/0-0/w_2.data/x", []),
  ("b/app/0/0-0/w_2.index", (entryOf [] 0).encode)]

/-- **Verification passes over what it cannot open**: three pairs are listed, each has an entry without its block, and
the exit code is zero. -/
theorem verify_passes_over_missing_data :
    ((verify onePartition).run Disk.handler overlookedDisk).1.exitCode = 0 ∧
      ∃ range ∈ PartitionRange.all onePartition.partitions onePartition.perRange, ∃ listing,
        overlookedDisk.list
            (Layout.partitionDir ⟨onePartition.base, onePartition.app, onePartition.shuffle⟩ range) = .ok listing ∧
          (listing.filterMap ShardFiles.ofIndex?).map ShardFiles.number = [0, 1, 2] ∧
          ∀ pair ∈ listing.filterMap ShardFiles.ofIndex?,
            ∃ entry ∈ indexEntries overlookedDisk.bytes? pair.index, ¬ overlookedDisk.HasBlock pair.data entry := by
  refine ⟨by decide +kernel, ⟨0, 0⟩, by decide +kernel, ["b/app/0/0-0/w_0.index", "b/app/0/0-0/w_1.data",
    "b/app/0/0-0/w_1.index", "b/app/0/0-0/w_2.index"].map Path.ofText, ?_⟩
  decide +kernel

end Cli

end BlockShuffle
