import Mathlib
import BlockShuffle.Proofs.Reading.Answers
import BlockShuffle.Proofs.Reading.ExactPlan
import BlockShuffle.Proofs.Reading.Finding

/-!
# Which pairs of a disk are opened

A partition that opens has a shard for each pair that counts (`Disk.Counts`), in the order of the listings, and for no
other. That is said by what is on the disk alone: an index that is listed, a data file that is there, and entries that
are in order.

Opening may fail instead, where a path leads to what it should not or cannot be looked up. On a disk where there are
directories and files where they are looked for, or nothing (`Disk.Regular`), it does not.

Whether a pair counts is decided by its two files and not by what else is there, and a data file need only be
present to count: that its bytes reach as far as the index says is found out by reading. Both predicates are
decidable, so that examples can be evaluated, and neither speaks of the settings but for where to look.

`Regular` is a condition on the paths that are looked up, not on the disk as a whole. It does not exclude files
that nobody asks for, index files without data files, or indexes that are not in order. Links are not on any
disk of the model (`Storage/Disk`), so a path that is listed as a file is the file that opens under it.
-/

set_option autoImplicit false

namespace BlockShuffle

open Storage Program

/-! ## Which shards open -/

namespace PartitionReader

variable {outcome : ShardFiles → Except Error (Option ShardReader)}
  {listing : Path → Except RetryError (List Path)} {shards : List ShardReader}

section Files

variable {counts : ShardFiles → Prop} [DecidablePred counts] (hcounts : ∀ pair shard?, outcome pair = .ok shard? →
  shard?.map ShardReader.files = if counts pair then some pair else none)

include hcounts

theorem files_of_shardsOf {paths : List Path} (h : shardsOf outcome paths = .ok shards) :
    shards.map ShardReader.files = (paths.filterMap ShardFiles.ofIndex?).filter (counts ·) := by
  obtain ⟨found, hpairs, rfl⟩ := exists_found_of_shardsOf h
  have heach : found.map (Option.map ShardReader.files) =
      (paths.filterMap ShardFiles.ofIndex?).map fun pair => if counts pair then some pair else none :=
    map_of_mapM (fun pair _ => hcounts pair) hpairs
  rw [← List.reduceOption_map, heach, List.reduceOption, List.filterMap_map, ← List.filterMap_eq_filter]
  congr 1
  funext pair
  simp [Option.guard]

/-- **The shards that open are of the pairs that count**, directory after directory. -/
theorem files_of_shardsIn {dirs : List Path} (h : shardsIn outcome listing dirs = .ok shards) :
    shards.map ShardReader.files =
      (dirs.flatMap fun dir => ((listing dir).toOption.getD []).filterMap ShardFiles.ofIndex?).filter (counts ·) := by
  obtain ⟨found, hdirs, rfl⟩ := exists_found_of_shardsIn h
  have heach : found.map (List.map ShardReader.files) = dirs.map fun dir =>
      (((listing dir).toOption.getD []).filterMap ShardFiles.ofIndex?).filter (counts ·) := by
    refine map_of_mapM (fun dir _ those hthose => ?_) hdirs
    rw [shardsAt] at hthose
    cases hlisting : listing dir with
    | error failure =>
      rw [hlisting] at hthose
      dsimp only at hthose
      split at hthose
      · cases hthose
        rfl
      · cases hthose
    | ok paths =>
      rw [hlisting] at hthose
      exact files_of_shardsOf hcounts hthose
  rw [List.map_flatten, heach, List.filter_flatMap, List.flatMap_def]

end Files

/-- Shards open if every directory can be listed, or is missing, and every pair that is listed comes to something. -/
theorem exists_shardsIn {dirs : List Path}
    (hlisting : ∀ dir ∈ dirs, ∀ failure, listing dir = .error failure → failure.isNotFound = true)
    (houtcome : ∀ dir ∈ dirs, ∀ paths, listing dir = .ok paths →
      ∀ pair ∈ paths.filterMap ShardFiles.ofIndex?, ∃ shard?, outcome pair = .ok shard?) :
    ∃ shards, shardsIn outcome listing dirs = .ok shards := by
  have hdirs : ∀ dir ∈ dirs, ∃ those, shardsAt outcome listing dir = .ok those := by
    intro dir hdir
    rw [shardsAt]
    cases hlist : listing dir with
    | error failure =>
      dsimp only
      rw [if_pos (hlisting dir hdir failure hlist)]
      exact ⟨[], rfl⟩
    | ok paths =>
      obtain ⟨found, hfound⟩ := exists_mapM (houtcome dir hdir paths hlist)
      dsimp only
      exact ⟨found.reduceOption, by rw [shardsOf, hfound]; rfl⟩
  obtain ⟨found, hfound⟩ := exists_mapM hdirs
  exact ⟨found.flatten, by rw [shardsIn, hfound]; rfl⟩

end PartitionReader

/-! ## Paths of a disk -/

namespace Disk

variable {disk : Disk} {path : Path}

theorem probe_of_openRead {reader : Reader} (h : disk.openRead path = .ok reader) : disk.probe path = .ok true := by
  rcases hlookup : disk.lookup path with fault | found
  · rw [openRead, hlookup] at h
    cases h
  · rw [probe, hlookup]

theorem probe_of_bytes? {bytes : Bytes} (h : disk.bytes? path = some bytes) : disk.probe path = .ok true := by
  obtain ⟨reader, hreader, -⟩ := disk.archive.file path bytes h
  exact probe_of_openRead hreader

/-- Of a path that leads nowhere, listing says so. -/
theorem kind_of_list {error : IoError} (h : disk.list path = .error error) (hmissing : disk.probe path = .ok false) :
    error.kind = .notFound := by
  rw [list] at h
  rw [probe] at hmissing
  rcases hlookup : disk.lookup path with fault | found
  · rw [hlookup] at h hmissing
    cases h
    cases fault with
    | noEntry => rfl
    | _ => cases hmissing
  · rw [hlookup] at hmissing
    cases hmissing

/-- A path that nothing can be read from since something is missing leads nowhere. -/
theorem probe_of_refuses {cause : IoError} (h : Refuses Disk.handler disk path cause)
    (hkind : cause.kind = .notFound ∨ cause.kind = .unexpectedEof) : disk.probe path = .ok false := by
  rcases hlookup : disk.lookup path with fault | ⟨number, node⟩
  · have hcause : cause = fault.toIoError := by
      have hopen : disk.openRead path = .error fault.toIoError := by rw [openRead, hlookup]
      rcases h with h | ⟨reader, _, _, _, h, -⟩
      · exact Except.error.inj (h.symm.trans hopen)
      · cases h.symm.trans hopen
    rw [hcause] at hkind
    cases fault with
    | noEntry => rw [probe, hlookup]
    | _ => rcases hkind with hkind | hkind <;> cases hkind
  · have hopen := openRead_of_lookup hlookup
    rcases h with h | ⟨reader, size, offset, length, h, hsize, hpos, hle, hread⟩
    · cases h.symm.trans hopen
    cases h.symm.trans hopen
    change disk.readAt _ _ _ = _ at hread
    replace hsize := Except.ok.inj hsize
    rw [Disk.size, Option.getD_some, node_of_lookup hlookup] at hsize
    rw [readAt, Option.getD_some, node_of_lookup hlookup] at hread
    -- A file lets itself be read. A directory does not, but it says so, and that is not taken for a missing file.
    cases node with
    | file contents =>
      dsimp only at hsize hread
      rw [Contents.slice?_eq_slice?_bytes, Bytes.slice?, Contents.length_bytes, if_pos (by omega)] at hread
      cases hread
    | directory above entries length' =>
      dsimp only at hsize hread
      rw [if_neg (by omega), if_neg (by omega)] at hread
      cases hread
      rcases hkind with hkind | hkind <;> cases hkind

/-! ## Pairs of a disk -/

/-- The pairs whose index files are listed where the settings look for them. -/
def recognised (disk : Disk) (config : ReadConfig) : List ShardFiles :=
  config.partitionDirs.flatMap fun dir => ((disk.list dir).toOption.getD []).filterMap ShardFiles.ofIndex?

/-- A pair that counts: its data file is there, and no entry of its index overlaps the one in front of it, goes back
behind it or ends where no offset can. The index, which was listed, is there as well. That is said too, since not every
value of `Disk` is a tree whose names can be looked up. -/
def Counts (disk : Disk) (pair : ShardFiles) : Prop :=
  disk.probe pair.data = .ok true ∧ disk.probe pair.index = .ok true ∧
    ReadPlan.InOrder (indexEntries disk.bytes? pair.index)

instance (disk : Disk) (pair : ShardFiles) : Decidable (Counts disk pair) :=
  decidable_of_iff (disk.probe pair.data = .ok true ∧ disk.probe pair.index = .ok true ∧
      ReadPlan.checkOrdered 0 (indexEntries disk.bytes? pair.index) = .ok ())
    (by rw [Counts, ReadPlan.checkOrdered_eq_ok_iff_inOrder])

def counted (disk : Disk) (config : ReadConfig) : List ShardFiles := (recognised disk config).filter (Counts disk ·)

/-- There are directories and files where they are looked for, or nothing. -/
structure Regular (disk : Disk) (config : ReadConfig) : Prop where
  listed : ∀ dir ∈ config.partitionDirs, (disk.list dir).isOk = true ∨ disk.probe dir = .ok false
  index : ∀ pair ∈ recognised disk config, (disk.bytes? pair.index).isSome = true
  data : ∀ pair ∈ recognised disk config, (disk.bytes? pair.data).isSome = true ∨ disk.probe pair.data = .ok false

instance (disk : Disk) (config : ReadConfig) : Decidable (Regular disk config) :=
  decidable_of_iff (_ ∧ _ ∧ _)
    ⟨fun ⟨hlisted, hindex, hdata⟩ => ⟨hlisted, hindex, hdata⟩, fun h => ⟨h.listed, h.index, h.data⟩⟩

variable {config : ReadConfig} {pair : ShardFiles}

/-- On a regular disk the data file of every pair that counts is a file. -/
theorem Regular.exists_data (h : Regular disk config) (hpair : pair ∈ counted disk config) :
    ∃ data, disk.bytes? pair.data = some data := by
  obtain ⟨hrecognised, hcounts⟩ := List.mem_filter.mp hpair
  rcases h.data pair hrecognised with hfile | hmissing
  · exact Option.isSome_iff_exists.mp hfile
  · cases (of_decide_eq_true hcounts).1.symm.trans hmissing

/-- A pair that is looked at opens just if it counts. -/
theorem files_of_outcome {found : Except Error (Option (List IndexEntry))}
    (h : ShardReader.Finds Disk.handler disk disk.bytes? config.retry pair found) {shard? : Option ShardReader}
    (houtcome : ShardReader.outcomeOf pair config.retry config.entryLimit config.byteLimit found = .ok shard?) :
    shard?.map ShardReader.files = if Counts disk pair then some pair else none := by
  rcases found with error | _ | entries
  · cases houtcome
  · cases houtcome
    rw [if_neg]
    · rfl
    rintro ⟨hdata, hindex, -⟩
    rcases h.absent rfl with hmissing | ⟨-, cause, hrefuses, hkind⟩
    · cases hdata.symm.trans hmissing
    · cases hindex.symm.trans (probe_of_refuses hrefuses hkind)
  · obtain ⟨hdata, ⟨reader, hopen⟩, rfl⟩ := h.present entries rfl
    have hindex : disk.probe pair.index = .ok true := probe_of_openRead hopen
    cases houtcome
    dsimp only
    have hiff : ReadPlan.checkOrdered 0 (indexEntries disk.bytes? pair.index) = .ok () ↔ Counts disk pair := by
      rw [ReadPlan.checkOrdered_eq_ok_iff_inOrder]
      exact ⟨fun h => ⟨hdata, hindex, h⟩, fun h => h.2.2⟩
    rw [Option.bind_some, ShardReader.files_ofEntries?]
    simp only [hiff]

/-- What opening the pairs of a disk comes to, one by one. -/
structure Outcomes (disk : Disk) (config : ReadConfig) (outcome : ShardFiles → Except Error (Option ShardReader)) :
    Prop where
  opens : ∀ pair, (ShardReader.open pair config.entryLimit config.byteLimit config.retry).Yields Disk.handler (· = disk)
    (· = outcome pair)
  files : ∀ pair shard?, outcome pair = .ok shard? →
    shard?.map ShardReader.files = if Counts disk pair then some pair else none
  openedFrom : ∀ pair shard, outcome pair = .ok (some shard) → shard.OpenedFrom disk.bytes? config
  failing : ∀ pair error, outcome pair = .error error →
    (∃ cause, disk.probe pair.data = .error cause) ∨ disk.bytes? pair.index = none

theorem exists_outcomes (disk : Disk) (config : ReadConfig) : ∃ outcome, Outcomes disk config outcome := by
  choose found hfinds using ShardReader.exists_finds (Disk.archive disk) config.retry
  refine ⟨fun pair => ShardReader.outcomeOf pair config.retry config.entryLimit config.byteLimit (found pair),
    fun pair => (hfinds pair).opens _ _, fun pair shard? => files_of_outcome (hfinds pair), ?_, ?_⟩
  · intro pair shard h
    exact (ShardReader.openedFrom_of_outcomeOf (fun entries hfound => ((hfinds pair).present entries hfound).2.2) h).2
  · intro pair error h
    cases hfound : found pair with
    | error cause => exact (hfinds pair).failing cause hfound
    | ok entries =>
      rw [hfound] at h
      cases h

/-- What a regular disk is opened as. -/
theorem exists_shards_of_regular {outcome : ShardFiles → Except Error (Option ShardReader)}
    (houtcomes : Outcomes disk config outcome) (h : Regular disk config) :
    ∃ shards, PartitionReader.shardsIn outcome (listingOf Disk.handler disk config.retry) config.partitionDirs =
      .ok shards := by
  -- Opening fails at a listing or at a pair. Here a listing fails only where there is no directory, and that is
  -- passed over.
  apply PartitionReader.exists_shardsIn
  · intro dir hdir failure hfailure
    cases hlist : disk.list dir with
    | error error =>
      have hmissing : disk.probe dir = .ok false := by
        rcases h.listed dir hdir with hok | hmissing
        · rw [hlist] at hok
          cases hok
        · exact hmissing
      have hkind : error.kind = .notFound := kind_of_list hlist hmissing
      have hsettled : listingOf Disk.handler disk config.retry dir = .error (.permanent error) :=
        (congrArg _ hlist).trans (settle_of_kind (Or.inl hkind))
      cases hfailure.symm.trans hsettled
      exact beq_iff_eq.mpr hkind
    | ok paths =>
      have hsettled : listingOf Disk.handler disk config.retry dir = .ok paths := settle_eq_ok_iff.mpr hlist
      cases hfailure.symm.trans hsettled
  · intro dir hdir paths hpaths pair hpair
    have hlist : disk.list dir = .ok paths := settle_eq_ok_iff.mp hpaths
    have hrecognised : pair ∈ recognised disk config :=
      List.mem_flatMap.mpr ⟨dir, hdir, by rw [hlist]; exact hpair⟩
    cases houtcome : outcome pair with
    | ok shard? => exact ⟨shard?, rfl⟩
    | error error =>
      obtain ⟨bytes, hbytes⟩ := Option.isSome_iff_exists.mp (h.index pair hrecognised)
      rcases houtcomes.failing pair error houtcome with ⟨cause, hprobe⟩ | hnone
      · rcases h.data pair hrecognised with hfile | hmissing
        · obtain ⟨data, hdata⟩ := Option.isSome_iff_exists.mp hfile
          cases hprobe.symm.trans (probe_of_bytes? hdata)
        · cases hprobe.symm.trans hmissing
      · cases hbytes.symm.trans hnone

end Disk

end BlockShuffle
