import Mathlib
import BlockShuffle.Proofs.Storage.Buffer
import BlockShuffle.Proofs.Storage.Reflection
import BlockShuffle.Proofs.Writing.Interleaving

/-!
# A writer in memory and its twin on a disk

Two writers of one shard, one in memory and one on a disk, are twins if they have come equally far and their open
appenders are at rest (`Twin`). A request that goes well in memory goes well on the disk, and leaves twins
(`twin_write`, `twin_rollOver`). How each of them pushes what it appended does not matter: a batch ends with a push of
both files, so between two requests nothing is held back.

A twin's file holds the same bytes only when nothing is held back for it, and in the middle of a batch something
is. Two relations are therefore in use: appenders *in step* will have the same file once everything was sent,
and appenders *at rest* have it. Payloads and entries are appended in step; the push at the end of each brings
them to rest, and only pairs at rest are part of `Twin`. That both strategies end in a flush of either file is
the one thing about them that enters.

The proof is per request and in one direction. From a request that fails in memory nothing is concluded, since a
disk may fail for reasons that a memory does not know; a batch that the writer refuses without asking the
storage is refused on both sides.
-/

set_option autoImplicit false

namespace BlockShuffle

open Storage Program
open BlockShuffle.Path (IsName IsNamed)

namespace Layout

theorem isNamed_shuffleDir (layout : Layout) : layout.shuffleDir.IsNamed := Path.isNamed_join _ (isName_digits _)

end Layout

theorem isName_fileName {shard : String} (h : ShardWriter.isShardName shard = true) (number : UInt32)
    {extension : List Char} (he : IsExtension extension) : IsName (stemOf shard number ++ '.' :: extension) :=
  (isStem_stemOf h number).isName he.one

/-! ## Pushing and letting go -/

section Runs

variable {memory : Memory} {disk : Disk} {appender : Appender} {pair : OpenPair}

theorem run_push_memory (strategy : SyncStrategy) :
    (OpenPair.push strategy appender).run Memory.handler memory = ((.ok (), appender), memory) := by
  cases strategy <;> rfl

theorem run_push_disk (strategy : SyncStrategy) :
    (OpenPair.push strategy appender).run Disk.handler disk = Disk.flush appender disk := by
  cases strategy <;> rfl

theorem Disk.flush_of_sent (h : appender.unflushed = []) : Disk.flush appender disk = ((.ok (), appender), disk) := by
  rw [Disk.flush]
  split
  · rfl
  · rw [if_pos (List.isEmpty_iff.mpr h)]

theorem run_release_of_sent (h : appender.unflushed = []) :
    (Program.release appender).run Disk.handler disk = ((), disk) := by
  show ((), (Disk.flush appender disk).2) = _
  rw [Disk.flush_of_sent h]

theorem run_release_disk (hdata : pair.data.unflushed = []) (hindex : pair.index.unflushed = []) :
    pair.release.run Disk.handler disk = ((), disk) := by
  show ((), (Disk.flush pair.index (Disk.flush pair.data disk).2).2) = _
  rw [Disk.flush_of_sent hdata, Disk.flush_of_sent hindex]

theorem run_finish_disk (hdata : pair.data.unflushed = []) (hindex : pair.index.unflushed = []) :
    pair.finish.run Disk.handler disk = (.ok (), disk) := by
  have hsync : ∀ {appender : Appender}, appender.unflushed = [] →
      (Program.sync appender).run Disk.handler disk = ((.ok (), appender), disk) := Disk.flush_of_sent
  rw [OpenPair.finish, run_bind, hsync hdata]
  dsimp only
  rw [run_bind, hsync hindex]
  dsimp only
  rw [run_bind, run_release_disk hdata hindex]
  rfl

end Runs

/-! ## Pairs -/

section Pairs

variable {layout : Layout} {range : PartitionRange} {shard : String} {number : UInt32} {extension : List Char}
  {memory memory' : Memory} {disk later : Disk} {appender appender' other : Appender}

/-- Appenders of a file of a shard are in step. -/
def FileInStep (layout : Layout) (range : PartitionRange) (shard : String) (number : UInt32) (extension : List Char)
    (memory : Memory) (disk : Disk) (appender other : Appender) : Prop :=
  InStep layout.shuffleDir (Disk.numberOf layout.shuffleDir) range.text.toList
    (stemOf shard number ++ '.' :: extension) memory disk appender other

/-- Appenders of a file of a shard are at rest. -/
def FileAtRest (layout : Layout) (range : PartitionRange) (shard : String) (number : UInt32) (extension : List Char)
    (memory : Memory) (disk : Disk) (appender other : Appender) : Prop :=
  AtRest layout.shuffleDir (Disk.numberOf layout.shuffleDir) range.text.toList
    (stemOf shard number ++ '.' :: extension) memory disk appender other

/-- Both pairs of this number are open, and at rest. -/
structure TwinPair (layout : Layout) (range : PartitionRange) (shard : String) (number : UInt32) (memory : Memory)
    (disk : Disk) (pair other : OpenPair) : Prop where
  files : pair.files = layout.shardFiles range shard number
  other_files : other.files = pair.files
  data : FileAtRest layout range shard number ShardFiles.dataExtension memory disk pair.data other.data
  index : FileAtRest layout range shard number ShardFiles.indexExtension memory disk pair.index other.index

/-- The shuffle's memory and its disk are the same. -/
abbrev SameFiles (layout : Layout) (memory : Memory) (disk : Disk) : Prop :=
  Mirrors layout.shuffleDir (Disk.numberOf layout.shuffleDir) memory disk

theorem FileAtRest.path_eq (h : FileAtRest layout range shard number extension memory disk appender other) :
    appender.path = layout.file range shard number extension := AtRest.path h

/-- Payloads that are appended in memory are appended on the disk, at the same offsets. -/
theorem inStep_appendPayloads (hshard : ShardWriter.isShardName shard = true) (he : IsExtension extension)
    {blocks : List Block} : ∀ {memory : Memory} {disk : Disk} {appender other : Appender} {done entries},
    FileInStep layout range shard number extension memory disk appender other →
    (OpenPair.appendPayloads appender done blocks).run Memory.handler memory =
      ((.ok entries, appender'), memory') →
    ∃ other' later, (OpenPair.appendPayloads other done blocks).run Disk.handler disk =
        ((.ok entries, other'), later) ∧
      FileInStep layout range shard number extension memory' later appender' other' ∧ disk.Extends later := by
  induction blocks with
  | nil =>
    intro memory disk appender other done entries h hrun
    cases hrun
    exact ⟨other, disk, rfl, h, Disk.Extends.refl disk⟩
  | cons block blocks ih =>
    intro memory disk appender other done entries h hrun
    rw [OpenPair.appendPayloads, run_bind] at hrun ⊢
    rcases happend : Memory.append appender block.payload memory with ⟨⟨error | ⟨⟩, mid⟩, memory₁⟩
    · have hfirst : (Program.append appender block.payload).run Memory.handler memory =
          ((.error error, mid), memory₁) := happend
      rw [hfirst] at hrun
      cases hrun
    · have hfirst : (Program.append appender block.payload).run Memory.handler memory = ((.ok (), mid), memory₁) :=
        happend
      obtain ⟨other₁, disk₁, hother, hmid, hextends⟩ :=
        InStep.append h (isName_text range) (isName_fileName hshard number he) happend
      have hsecond : (Program.append other block.payload).run Disk.handler disk = ((.ok (), other₁), disk₁) := hother
      rw [hfirst] at hrun
      rw [hsecond, InStep.position_eq h]
      obtain ⟨other', later, hrest, hafter, hextends'⟩ := ih hmid hrun
      exact ⟨other', later, hrest, hafter, hextends.trans hextends'⟩

/-- Appending to one file of a shard leaves the others. -/
theorem find?_of_other {number' : UInt32} {extension' : List Char} {α : Type} {program : Program α}
    {post : α → Prop} (hshard : ShardWriter.isShardName shard = true) (he : IsExtension extension)
    (he' : IsExtension extension')
    (hconfined : program.Confined (· = layout.file range shard number extension) post)
    (hne : extension ≠ extension') (memory : Memory) :
    (program.run Memory.handler memory).2.find? (layout.file range shard number' extension') =
      memory.find? (layout.file range shard number' extension') := by
  apply Memory.find?_run_of_ne hconfined
  intro mine hmine heq
  subst hmine
  exact hne (Layout.file_inj_of_shard hshard he he' heq).2

/-- What concerns one file of a shard leaves the others at rest. -/
theorem FileAtRest.of_other {number' : UInt32} {extension' : List Char} {α : Type} {program : Program α}
    {post : α → Prop} (h : FileAtRest layout range shard number' extension' memory disk appender other)
    (hshard : ShardWriter.isShardName shard = true) (he : IsExtension extension) (he' : IsExtension extension')
    (hconfined : program.Confined (· = layout.file range shard number extension) post)
    (hne : extension ≠ extension') (hextends : disk.Extends later) :
    FileAtRest layout range shard number' extension' (program.run Memory.handler memory).2 later appender other := by
  refine AtRest.frame h ?_ hextends
  rw [h.path_eq]
  exact find?_of_other hshard he he' hconfined hne memory

/-- Entries that are appended and pushed in memory are appended and pushed on the disk. -/
theorem inStep_appendEntries (hshard : ShardWriter.isShardName shard = true) (he : IsExtension extension)
    (h : FileInStep layout range shard number extension memory disk appender other) {strategy : SyncStrategy}
    (strategy' : SyncStrategy) {entries : List IndexEntry}
    (hrun : (OpenPair.appendEntries strategy appender entries).run Memory.handler memory =
      ((.ok (), appender'), memory')) :
    ∃ other' later, (OpenPair.appendEntries strategy' other entries).run Disk.handler disk =
        ((.ok (), other'), later) ∧
      SameFiles layout memory' later ∧
      FileAtRest layout range shard number extension memory' later appender' other' ∧ disk.Extends later := by
  rw [OpenPair.appendEntries, run_bind] at hrun ⊢
  rcases happend : (Program.append appender (IndexEntry.encodeAll entries)).run Memory.handler memory with
    ⟨⟨error | ⟨⟩, mid⟩, memory₁⟩
  · rw [happend] at hrun
    cases hrun
  · obtain ⟨other₁, disk₁, hother, hmid, hextends⟩ :=
      InStep.append h (isName_text range) (isName_fileName hshard number he) happend
    have hsecond : (Program.append other (IndexEntry.encodeAll entries)).run Disk.handler disk =
        ((.ok (), other₁), disk₁) := hother
    obtain ⟨other', later, hflush, hsame, hrest, hextends'⟩ := InStep.flush hmid
    rw [happend] at hrun
    rw [hsecond]
    dsimp only at hrun ⊢
    rw [run_push_memory] at hrun
    rw [run_push_disk, hflush]
    cases hrun
    exact ⟨other', later, rfl, hsame, hrest, hextends.trans hextends'⟩

/-- **A batch that is written in memory is written on the disk.** -/
theorem TwinPair.writeBatch {pair pair' other : OpenPair} (hshard : ShardWriter.isShardName shard = true)
    (h : TwinPair layout range shard number memory disk pair other) (hsame : SameFiles layout memory disk)
    {strategy : SyncStrategy} (strategy' : SyncStrategy) {blocks : List Block}
    (hrun : (pair.writeBatch strategy blocks).run Memory.handler memory = ((.ok (), pair'), memory')) :
    ∃ other' later, (other.writeBatch strategy' blocks).run Disk.handler disk = ((.ok (), other'), later) ∧
      TwinPair layout range shard number memory' later pair' other' ∧ SameFiles layout memory' later ∧
      disk.Extends later := by
  have hdataName := isName_fileName hshard number isExtension_data
  have hindexName := isName_fileName hshard number isExtension_index
  have hne : ShardFiles.dataExtension ≠ ShardFiles.indexExtension := by decide
  rw [OpenPair.writeBatch, run_bind] at hrun ⊢
  rcases hpayloads : (OpenPair.appendPayloads pair.data [] blocks).run Memory.handler memory with
    ⟨⟨error | entries, data⟩, memory₁⟩
  · rw [hpayloads] at hrun
    cases hrun
  -- The payloads are in step, and behind the push they are at rest.
  obtain ⟨otherData, disk₁, hotherPayloads, hstep, hextends₁⟩ := inStep_appendPayloads hshard isExtension_data
    (AtRest.inStep h.data hsame (isName_text range) hdataName) hpayloads
  obtain ⟨otherData', disk₂, hflush, hsame₂, hdata, hextends₂⟩ := InStep.flush hstep
  have hindex : FileAtRest layout range shard number ShardFiles.indexExtension memory₁ disk₂ pair.index other.index := by
    have hother := h.index.of_other hshard isExtension_data isExtension_index
      (OpenPair.confined_appendPayloads h.data.path_eq [] blocks) hne (hextends₁.trans hextends₂)
    rwa [hpayloads] at hother
  rw [hpayloads] at hrun
  rw [hotherPayloads]
  dsimp only at hrun ⊢
  rw [run_bind, run_push_memory] at hrun
  rw [run_bind, run_push_disk, hflush]
  dsimp only at hrun ⊢
  rw [run_bind] at hrun ⊢
  rcases hentries : (OpenPair.appendEntries strategy pair.index entries).run Memory.handler memory₁ with
    ⟨⟨error | ⟨⟩, index⟩, memory₂⟩
  · rw [hentries] at hrun
    cases hrun
  -- Then the same for the entries, while the data file is the one that stays at rest.
  obtain ⟨otherIndex, later, hotherEntries, hsame', hindex', hextends₃⟩ := inStep_appendEntries hshard
    isExtension_index (AtRest.inStep hindex hsame₂ (isName_text range) hindexName) strategy' hentries
  have hdata' : FileAtRest layout range shard number ShardFiles.dataExtension memory₂ later data otherData' := by
    have hother := FileAtRest.of_other hdata hshard isExtension_index isExtension_data
      (OpenPair.confined_appendEntries strategy h.index.path_eq entries) hne.symm hextends₃
    rwa [hentries] at hother
  rw [hentries] at hrun
  rw [hotherEntries]
  cases hrun
  exact ⟨_, later, rfl, ⟨h.files, h.other_files, hdata', hindex'⟩, hsame',
    (hextends₁.trans hextends₂).trans hextends₃⟩

end Pairs

/-! ## Writers -/

section Writers

variable {layout : Layout} {range : PartitionRange} {shard : String} {number : UInt32} {memory memory' : Memory}
  {disk : Disk} {writer writer' other : ShardWriter}

/-- A writer of this shard. -/
structure ShardWriter.IsOf (writer : ShardWriter) (layout : Layout) (range : PartitionRange) (shard : String) :
    Prop where
  layout : writer.layout = layout
  range : writer.range = range
  shard : writer.shard = shard

theorem ShardWriter.IsOf.filesOf_eq (h : writer.IsOf layout range shard) (number : UInt32) :
    writer.filesOf number = layout.shardFiles range shard number := by
  rw [filesOf, h.layout, h.range, h.shard]

abbrev Reflected (layout : Layout) (memory : Memory) (disk : Disk) : Prop :=
  Reflects layout.shuffleDir memory disk

/-- Every path that is listed is one that the operating system accepts. -/
def AllOpen (memory : Memory) : Prop := ∀ path ∈ memory.paths, Disk.Opens path

theorem AllOpen.of_run {α : Type} {program : Program α} (h : AllOpen (program.run Memory.handler memory).2)
    (hadds : program.Only Call.Adds) : AllOpen memory :=
  fun path hpath => h path (Memory.mem_paths_run hadds hpath)

/-- A file of a shard is opened on both alike. -/
theorem exists_openAppend (h : Reflected layout memory disk) (hshard : ShardWriter.isShardName shard = true)
    {extension : List Char} (he : IsExtension extension)
    (hopen : AllOpen (Memory.openAppend (layout.file range shard number extension) memory).2) :
    ∃ other later, (Program.openAppend (layout.file range shard number extension)).run Disk.handler disk =
        (.ok other, later) ∧
      SameFiles layout (Memory.openAppend (layout.file range shard number extension) memory).2 later ∧
      FileAtRest layout range shard number extension
        (Memory.openAppend (layout.file range shard number extension) memory).2 later
        (Memory.openAppend (layout.file range shard number extension) memory).1 other ∧
      disk.Extends later := by
  have hname := isName_fileName hshard number he
  exact h.openAppend layout.isNamed_shuffleDir (isName_text range) hname
    (hopen _ (h.mem_paths_openAppend (isName_text range) hname))

theorem run_openAppend_memory (path : Path) (memory : Memory) :
    (Program.openAppend path).run Memory.handler memory =
      (.ok (Memory.openAppend path memory).1, (Memory.openAppend path memory).2) := rfl

/-- Beside an index that is at rest, the data file is opened on both alike, and then both files are at rest. -/
theorem exists_openData (hsame : SameFiles layout memory disk) (hshard : ShardWriter.isShardName shard = true)
    {index index' : Appender}
    (hindex : FileAtRest layout range shard number ShardFiles.indexExtension memory disk index index')
    (hopen : AllOpen (Memory.openAppend (layout.file range shard number ShardFiles.dataExtension) memory).2) :
    ∃ data later, (Program.openAppend (layout.file range shard number ShardFiles.dataExtension)).run Disk.handler disk =
        (.ok data, later) ∧
      TwinPair layout range shard number
        (Memory.openAppend (layout.file range shard number ShardFiles.dataExtension) memory).2 later
        ⟨layout.shardFiles range shard number,
          (Memory.openAppend (layout.file range shard number ShardFiles.dataExtension) memory).1, index⟩
        ⟨layout.shardFiles range shard number, data, index'⟩ ∧
      SameFiles layout (Memory.openAppend (layout.file range shard number ShardFiles.dataExtension) memory).2 later ∧
      disk.Extends later := by
  obtain ⟨data, later, hdata, hsame', hrest, hextends⟩ :=
    exists_openAppend (Or.inr hsame) hshard isExtension_data hopen
  have hcall : (Call.openAppend (layout.file range shard number ShardFiles.dataExtension)).Within
      (· = layout.file range shard number ShardFiles.dataExtension) := rfl
  have hindex' := hindex.of_other hshard isExtension_data isExtension_index (confined_call hcall) (by decide) hextends
  exact ⟨data, later, hdata, ⟨rfl, rfl, hrest, hindex'⟩, hsame', hextends⟩

/-- **The pair that is found in memory is found on the disk**, and its files are at rest. -/
theorem twin_openPairFrom (hof : writer.IsOf layout range shard) (hof' : other.IsOf layout range shard)
    (hshard : ShardWriter.isShardName shard = true) {pair : OpenPair} {last : UInt32} (left : Nat) :
    ∀ {number memory disk}, Reflected layout memory disk →
      (writer.openPairFrom left number).run Memory.handler memory = ((.ok pair, last), memory') → AllOpen memory' →
      ∃ pair' later, (other.openPairFrom left number).run Disk.handler disk = ((.ok pair', last), later) ∧
        TwinPair layout range shard last memory' later pair pair' ∧ SameFiles layout memory' later ∧
        disk.Extends later := by
  induction left using Nat.strong_induction_on with
  | _ left ih =>
    intro number memory disk h hrun hopen
    rw [ShardWriter.openPairFrom.eq_def] at hrun ⊢
    dsimp only at hrun ⊢
    rw [hof.filesOf_eq, Layout.shardFiles_eq] at hrun
    rw [hof'.filesOf_eq, Layout.shardFiles_eq]
    dsimp only at hrun ⊢
    rw [run_bind, run_openAppend_memory] at hrun
    dsimp only at hrun
    set indexPath := layout.file range shard number ShardFiles.indexExtension
    set dataPath := layout.file range shard number ShardFiles.dataExtension
    -- Both indexes are equally long, so both take this pair or both go on to the next number.
    by_cases hwhole : (Memory.openAppend indexPath memory).1.position.toNat % IndexEntry.size = 0
    · rw [if_pos hwhole, run_bind, run_openAppend_memory] at hrun
      cases hrun
      have hopened : AllOpen ((Program.openAppend dataPath).run Memory.handler
        (Memory.openAppend indexPath memory).2).2 := hopen
      have hopen₁ := hopened.of_run (only_call trivial)
      obtain ⟨index, disk₁, hindex, hsame₁, hrest, hextends₁⟩ := exists_openAppend h hshard isExtension_index hopen₁
      obtain ⟨data, later, hdata, htwin, hsame, hextends⟩ := exists_openData hsame₁ hshard hrest hopen
      rw [run_bind, hindex]
      dsimp only
      rw [AtRest.position hrest, if_pos hwhole, run_bind, hdata]
      exact ⟨_, later, rfl, htwin, hsame, hextends₁.trans hextends⟩
    · rw [if_neg hwhole, run_bind] at hrun
      cases left with
      | zero => cases hrun
      | succ left =>
        have hrun' : (writer.openPairFrom left (number + 1)).run Memory.handler
            (Memory.openAppend indexPath memory).2 = ((.ok pair, last), memory') := hrun
        have hopen₁ : AllOpen (Memory.openAppend indexPath memory).2 := by
          refine AllOpen.of_run ?_ (ShardWriter.only_openPairFrom writer left (number + 1))
          rw [hrun']
          exact hopen
        obtain ⟨index, disk₁, hindex, hsame₁, hrest, hextends₁⟩ := exists_openAppend h hshard isExtension_index hopen₁
        obtain ⟨pair', later, hother, htwin, hsame, hextends⟩ :=
          ih left (Nat.lt_succ_self left) (Or.inr hsame₁) hrun' hopen
        rw [run_bind, hindex]
        dsimp only
        rw [AtRest.position hrest, if_neg hwhole, run_bind, run_release_of_sent hrest.sent]
        exact ⟨pair', later, hother, htwin, hsame, hextends₁.trans hextends⟩

/-- Two writers of a shard that have come equally far, and whose open pairs are at rest. -/
structure Twin (layout : Layout) (range : PartitionRange) (shard : String) (memory : Memory) (disk : Disk)
    (writer other : ShardWriter) : Prop where
  named : ShardWriter.isShardName shard = true
  isOf : writer.IsOf layout range shard
  other_isOf : other.IsOf layout range shard
  number : other.number = writer.number
  blocksWritten : other.blocksWritten = writer.blocksWritten
  pair : (writer.pair = none ∧ other.pair = none) ∨ ∃ number pair pair', writer.pair = some pair ∧
    other.pair = some pair' ∧ TwinPair layout range shard number memory disk pair pair'

/-- A writer is not touched by what is done to other files. -/
theorem Twin.frame {later : Disk} (h : Twin layout range shard memory disk writer other)
    (hfind : ∀ number extension, IsExtension extension →
      memory'.find? (layout.file range shard number extension) =
        memory.find? (layout.file range shard number extension))
    (hextends : disk.Extends later) : Twin layout range shard memory' later writer other := by
  refine { h with pair := ?_ }
  rcases h.pair with hnone | ⟨number, pair, pair', hpair, hpair', htwin⟩
  · exact Or.inl hnone
  · refine Or.inr ⟨number, pair, pair', hpair, hpair', { htwin with data := ?_, index := ?_ }⟩
    · refine AtRest.frame htwin.data ?_ hextends
      rw [htwin.data.path_eq]
      exact hfind number _ isExtension_data
    · refine AtRest.frame htwin.index ?_ hextends
      rw [htwin.index.path_eq]
      exact hfind number _ isExtension_index

/-- The files of a shard. -/
def IsFileOf (layout : Layout) (range : PartitionRange) (shard : String) (path : Path) : Prop :=
  ∃ number extension, IsExtension extension ∧ path = layout.file range shard number extension

theorem Twin.owns (h : Twin layout range shard memory disk writer other) :
    writer.Owns (IsFileOf layout range shard) := by
  constructor
  · intro number
    rw [h.isOf.filesOf_eq]
    exact ⟨number, _, isExtension_data, rfl⟩
  · intro number
    rw [h.isOf.filesOf_eq]
    exact ⟨number, _, isExtension_index, rfl⟩
  · intro pair hpair
    rcases h.pair with ⟨hnone, -⟩ | ⟨number, pair', _, hpair', -, htwin⟩
    · rw [hnone] at hpair
      cases hpair
    · rw [hpair] at hpair'
      cases hpair'
      exact ⟨⟨number, _, isExtension_data, htwin.data.path_eq⟩, ⟨number, _, isExtension_index, htwin.index.path_eq⟩⟩

/-- The pair that a batch goes to is the same, and at rest. -/
theorem Twin.openPair (h : Twin layout range shard memory disk writer other) (hreflects : Reflected layout memory disk)
    {pair : OpenPair} (hrun : writer.openPair.run Memory.handler memory = ((.ok pair, number), memory'))
    (hopen : AllOpen memory') :
    ∃ pair' number' later, other.openPair.run Disk.handler disk = ((.ok pair', number), later) ∧
      TwinPair layout range shard number' memory' later pair pair' ∧ SameFiles layout memory' later ∧
      disk.Extends later := by
  rw [ShardWriter.openPair.eq_def] at hrun ⊢
  rcases h.pair with ⟨hnone, hnone'⟩ | ⟨number', pair₁, pair', hpair, hpair', htwin⟩
  · rw [hnone] at hrun
    rw [hnone', h.number]
    obtain ⟨pair', later, hother, htwin, hsame, hextends⟩ :=
      twin_openPairFrom h.isOf h.other_isOf h.named _ hreflects hrun hopen
    exact ⟨pair', number, later, hother, htwin, hsame, hextends⟩
  · rw [hpair] at hrun
    cases hrun
    rw [hpair', h.number]
    -- Where a pair is open, something was stored.
    rcases hreflects with ⟨rfl, -⟩ | hsame
    · obtain ⟨_, _, _, _, hfind, _⟩ := AtRest.file htwin.data
      cases hfind
    · exact ⟨pair', number', disk, rfl, htwin, hsame, Disk.Extends.refl disk⟩

theorem Twin.writeChecked (h : Twin layout range shard memory disk writer other)
    (hreflects : Reflected layout memory disk) {blocks : List Block}
    (hrun : (writer.writeChecked blocks).run Memory.handler memory = ((.ok (), writer'), memory'))
    (hopen : AllOpen memory') :
    ∃ other' later, (other.writeChecked blocks).run Disk.handler disk = ((.ok (), other'), later) ∧
      Twin layout range shard memory' later writer' other' ∧ SameFiles layout memory' later ∧ disk.Extends later := by
  rw [ShardWriter.writeChecked, run_bind] at hrun ⊢
  rcases hpair : writer.openPair.run Memory.handler memory with ⟨⟨error | pair, number⟩, memory₁⟩
  · rw [hpair] at hrun
    cases hrun
  rw [hpair] at hrun
  dsimp only at hrun
  rw [run_bind] at hrun
  rcases hwrite : (pair.writeBatch writer.strategy blocks).run Memory.handler memory₁ with
    ⟨⟨error | ⟨⟩, pair₁⟩, memory₂⟩
  · rw [hwrite] at hrun
    cases hrun
  rw [hwrite] at hrun
  cases hrun
  have hopen₁ : AllOpen memory₁ := by
    refine AllOpen.of_run ?_ (ShardWriter.only_writeBatch writer.strategy pair blocks)
    rw [hwrite]
    exact hopen
  obtain ⟨pair', number', disk₁, hother, htwin, hsame, hextends⟩ := h.openPair hreflects hpair hopen₁
  obtain ⟨pair₁', later, hother', htwin', hsame', hextends'⟩ :=
    htwin.writeBatch h.named hsame other.strategy hwrite
  rw [hother]
  dsimp only
  rw [run_bind, hother']
  refine ⟨_, later, rfl, ?_, hsame', hextends.trans hextends'⟩
  exact ⟨h.named, ⟨h.isOf.layout, h.isOf.range, h.isOf.shard⟩,
    ⟨h.other_isOf.layout, h.other_isOf.range, h.other_isOf.shard⟩, rfl, by rw [h.blocksWritten],
    Or.inr ⟨number', pair₁, pair₁', rfl, rfl, htwin'⟩⟩

/-- **A batch that goes well in memory goes well on the disk**, and one that is refused is refused. -/
theorem twin_write (h : Twin layout range shard memory disk writer other) (hreflects : Reflected layout memory disk)
    {blocks : List Block} {answer : Except Error Unit}
    (hrun : (writer.write blocks).run Memory.handler memory = ((answer, writer'), memory'))
    (hfree : ∀ error, answer ≠ .error (.io error)) (hopen : AllOpen memory') :
    ∃ other' later, (other.write blocks).run Disk.handler disk = ((answer, other'), later) ∧
      Twin layout range shard memory' later writer' other' ∧ Reflected layout memory' later ∧
      disk.Extends later := by
  rw [ShardWriter.write] at hrun ⊢
  cases hcheck : ShardWriter.checkBlocks blocks with
  | error fault =>
    rw [hcheck] at hrun
    cases hrun
    exact ⟨other, disk, rfl, h, hreflects, Disk.Extends.refl disk⟩
  | ok =>
    rw [hcheck] at hrun
    dsimp only at hrun ⊢
    rw [run_bind] at hrun ⊢
    rcases hchecked : (writer.writeChecked blocks).run Memory.handler memory with ⟨⟨error | ⟨⟩, writer₁⟩, memory₁⟩
    · rw [hchecked] at hrun
      cases hrun
      exact absurd rfl (hfree error)
    · rw [hchecked] at hrun
      cases hrun
      obtain ⟨other', later, hother, htwin, hsame, hextends⟩ := h.writeChecked hreflects hchecked hopen
      rw [hother]
      exact ⟨other', later, rfl, htwin, Or.inr hsame, hextends⟩

/-- An open pair is finished without anything being sent. -/
theorem TwinPair.run_finish {pair pair' : OpenPair} (h : TwinPair layout range shard number memory disk pair pair') :
    pair.finish.run Memory.handler memory = (.ok (), memory) ∧ pair'.finish.run Disk.handler disk = (.ok (), disk) :=
  ⟨rfl, run_finish_disk (AtRest.sent h.data) (AtRest.sent h.index)⟩

/-- **To roll over is the same on both.** -/
theorem twin_rollOver (h : Twin layout range shard memory disk writer other) :
    ∃ writer' other', writer.rollOver.run Memory.handler memory = ((.ok (), writer'), memory) ∧
      other.rollOver.run Disk.handler disk = ((.ok (), other'), disk) ∧
      Twin layout range shard memory disk writer' other' := by
  have hisOf : ∀ {writer : ShardWriter} {number : UInt32} {pair : Option OpenPair},
      writer.IsOf layout range shard → ShardWriter.IsOf { writer with pair, number } layout range shard :=
    fun hof => ⟨hof.layout, hof.range, hof.shard⟩
  rw [ShardWriter.rollOver.eq_def, ShardWriter.rollOver.eq_def]
  rcases h.pair with ⟨hnone, hnone'⟩ | ⟨number, pair, pair', hpair, hpair', htwin⟩
  · rw [hnone, hnone']
    refine ⟨_, _, rfl, rfl, h.named, hisOf h.isOf, hisOf h.other_isOf, ?_, h.blocksWritten, Or.inl ⟨rfl, rfl⟩⟩
    show other.number + 1 = writer.number + 1
    rw [h.number]
  · obtain ⟨hfinish, hfinish'⟩ := htwin.run_finish
    rw [hpair, hpair']
    dsimp only
    rw [run_bind, run_bind, hfinish, hfinish']
    refine ⟨_, _, rfl, rfl, h.named, hisOf h.isOf, hisOf h.other_isOf, ?_, h.blocksWritten, Or.inl ⟨rfl, rfl⟩⟩
    show other.number + 1 = writer.number + 1
    rw [h.number]

/-- **To close is the same on both.** -/
theorem twin_close (h : Twin layout range shard memory disk writer other) :
    writer.close.run Memory.handler memory = (.ok (), memory) ∧ other.close.run Disk.handler disk = (.ok (), disk) := by
  rw [ShardWriter.close.eq_def, ShardWriter.close.eq_def]
  rcases h.pair with ⟨hnone, hnone'⟩ | ⟨number, pair, pair', hpair, hpair', htwin⟩
  · rw [hnone, hnone']
    exact ⟨rfl, rfl⟩
  · obtain ⟨hfinish, hfinish'⟩ := htwin.run_finish
    rw [hpair, hpair']
    dsimp only
    rw [run_bind, run_bind, hfinish, hfinish']
    exact ⟨rfl, rfl⟩

/-- **To let go is the same on both.** -/
theorem twin_drop (h : Twin layout range shard memory disk writer other) :
    writer.release.run Memory.handler memory = ((), memory) ∧ other.release.run Disk.handler disk = ((), disk) := by
  rw [ShardWriter.release.eq_def, ShardWriter.release.eq_def]
  rcases h.pair with ⟨hnone, hnone'⟩ | ⟨number, pair, pair', hpair, hpair', htwin⟩
  · rw [hnone, hnone']
    exact ⟨rfl, rfl⟩
  · rw [hpair, hpair']
    exact ⟨rfl, run_release_disk (AtRest.sent htwin.data) (AtRest.sent htwin.index)⟩

end Writers

end BlockShuffle
