import Mathlib
import BlockShuffle.Proofs.Layout
import BlockShuffle.Proofs.Reading.Cursor
import BlockShuffle.Proofs.Reading.Discovery
import BlockShuffle.Proofs.Reading.Plan
import BlockShuffle.Proofs.Storage.Footprint

/-!
# Files that are of no shard

A partition's directory may hold anything beside its shards: copies under other names, an index whose data file
is gone, an index that nobody can have written. Opening looks at all of it, and none of it counts. What has to
be said of such files is in `Unusable`, and what comes of it is that a partition opens to the same shards in the
same order and reads the same from then on (`extras_never_disturb`).

That a data file counts as there is decided by whether anything is at its path or below it. In a directory with
nothing deeper in it that is the file itself (`contains_data`), however the index file beside it is spelled.

The files are added to a memory whose other files are as they were, so what is compared is two openings of two
memories. One condition is not about the added file but about what it is added beside: it must not be the data
file of an index that is there, or it would complete a pair. For an added index the data file is looked for
among the extras as well, since two of them could make a pair of their own.

Directories with something deeper in them are left out, because a data file that is missing counts as there if
something lies below its path. The statement is about memory; on a disk other failures come with a directory
that has the name of a file, and they are in `Proofs/Reading/Finding`.
-/

set_option autoImplicit false

namespace BlockShuffle

open Storage Program

namespace Memory

/-! ## Storing files -/

/-- Store files, one after another. -/
def insertAll (memory : Memory) (files : List (Path × Contents)) : Memory :=
  files.foldl (fun memory file => memory.insert file.1 file.2) memory

variable {memory : Memory} {files : List (Path × Contents)}

theorem find?_insertAll_of_ne {path : Path} (h : ∀ file ∈ files, file.1.components ≠ path.components)
    (memory : Memory) : (memory.insertAll files).find? path = memory.find? path := by
  induction files generalizing memory with
  | nil => rfl
  | cons file files ih =>
    rw [List.forall_mem_cons] at h
    exact (ih h.2 _).trans (find?_insert_of_ne h.1 memory file.2)

/-- Files under different paths are all there. -/
theorem find?_insertAll (hdistinct : files.Pairwise fun file other => file.1.components ≠ other.1.components)
    {file : Path × Contents} (hfile : file ∈ files) (memory : Memory) :
    (memory.insertAll files).find? file.1 = some file.2 := by
  induction files generalizing memory with
  | nil => cases hfile
  | cons first files ih =>
    rw [List.pairwise_cons] at hdistinct
    rcases List.mem_cons.mp hfile with rfl | hmem
    · have hrest : ∀ other ∈ files, other.1.components ≠ file.1.components :=
        fun other ho => (hdistinct.1 other ho).symm
      exact (find?_insertAll_of_ne hrest _).trans (find?_insert_self memory file.1 file.2)
    · exact ih hdistinct.2 hmem _

theorem filterMap_sortedInsert {β : Type} {f : Path → Option β} {path : Path} (h : f path = none)
    (contents : Contents) (files : List (Path × Contents)) :
    ((SortedList.insert Path.order path contents files).map (·.1)).filterMap f =
      (files.map (·.1)).filterMap f := by
  induction files with
  | nil => simp [SortedList.insert, h]
  | cons entry files ih =>
    obtain ⟨key, kept⟩ := entry
    rw [SortedList.insert]
    cases Path.order path key with
    | lt => simp [h]
    | eq => rfl
    | gt => simp only [List.map_cons, List.filterMap_cons, ih]

/-- Files that are passed over do not change the order of the others. -/
theorem filterMap_paths_insertAll {β : Type} {f : Path → Option β} (h : ∀ file ∈ files, f file.1 = none)
    (memory : Memory) : (memory.insertAll files).paths.filterMap f = memory.paths.filterMap f := by
  induction files generalizing memory with
  | nil => rfl
  | cons file files ih =>
    rw [List.forall_mem_cons] at h
    exact (ih h.2 _).trans (filterMap_sortedInsert h.1 file.2 memory.files)

theorem mem_paths_insertAll {path : Path} (h : path ∈ memory.paths) : path ∈ (memory.insertAll files).paths := by
  induction files generalizing memory with
  | nil => exact h
  | cons file files ih => exact ih (mem_paths_insert h file.1 file.2)

/-! ## Directories with nothing deeper in them -/

/-- Everything in a directory is directly in it. -/
def Flat (memory : Memory) (dir : Path) : Prop :=
  ∀ path ∈ memory.paths, path.isWithin dir = true → path.isDirectlyIn dir = true

instance (memory : Memory) (dir : Path) : Decidable (memory.Flat dir) :=
  inferInstanceAs (Decidable (∀ path ∈ memory.paths, _))

/-- **A data file counts as there if it is there.** -/
theorem contains_data {dir path : Path} {pair : ShardFiles} (hflat : memory.Flat dir)
    (hin : path.isDirectlyIn dir = true) (hpair : ShardFiles.ofIndex? path = some pair) :
    memory.contains pair.data = (memory.find? pair.data).isSome := by
  obtain ⟨above, stem, -, hpath, hdata⟩ := ShardFiles.exists_of_ofIndex? hpair
  rw [(Path.isDirectlyIn_iff hpath).mp hin] at hdata
  rw [Bool.eq_iff_iff]
  constructor
  · intro hcontains
    obtain ⟨entry, hentry, hwithin⟩ := List.any_eq_true.mp hcontains
    rw [Path.isWithin_iff] at hwithin
    have hstored : entry.1 ∈ memory.paths := List.mem_map_of_mem hentry
    have hbelow : entry.1.isWithin dir = true := by
      rw [Path.isWithin_iff]
      exact (hdata ▸ List.prefix_append _ _ : dir.components <+: pair.data.components).trans hwithin
    -- Nothing is deeper in the directory than the data file would be.
    obtain ⟨last, hlast⟩ := Path.components_of_isDirectlyIn (hflat entry.1 hstored hbelow)
    have hsame : pair.data.components = entry.1.components := by
      apply hwithin.eq_of_length
      rw [hdata, hlast, List.length_append, List.length_append]
      rfl
    obtain ⟨contents, hfind⟩ := exists_find?_of_mem_paths hstored
    rw [find?_congr (Path.sameAs_iff.mpr hsame), hfind]
    rfl
  · intro hsome
    obtain ⟨contents, hfind⟩ := Option.isSome_iff_exists.mp hsome
    exact contains_of_find? hfind

end Memory

/-! ## Files that do not count -/

instance : DecidableRel ReadPlan.Before := fun _ _ => inferInstanceAs (Decidable (_ ≤ _))

/-- Entries that no writer writes: one ends past what an offset can say, or two of them overlap or go backwards. -/
def Disordered (entries : List IndexEntry) : Prop :=
  (∃ entry ∈ entries, UInt64.size ≤ entry.stop) ∨ ¬ entries.Pairwise ReadPlan.Before

instance (entries : List IndexEntry) : Decidable (Disordered entries) := inferInstanceAs (Decidable (_ ∨ _))

theorem Disordered.checkOrdered_ne {entries : List IndexEntry} (h : Disordered entries) (previousEnd : Nat) :
    ReadPlan.checkOrdered previousEnd entries ≠ .ok () := by
  intro hordered
  obtain ⟨hstop, -, hpairwise⟩ := ReadPlan.checkOrdered_eq_ok_iff.mp hordered
  rcases h with ⟨entry, hentry, hfar⟩ | hnot
  · exact absurd (hstop entry hentry) (Nat.not_lt.mpr hfar)
  · exact hnot hpairwise

/-- Files that are added to a memory under paths of their own, none of them the data file of an index that is there,
and each of them no index, or the index of no data file, or one with disordered entries. -/
structure Unusable (config : ReadConfig) (memory : Memory) (extras : List (Path × Contents)) : Prop where
  distinct : extras.Pairwise fun extra other => extra.1.components ≠ other.1.components
  unused : ∀ extra ∈ extras, memory.find? extra.1 = none
  flat : ∀ dir ∈ config.partitionDirs, (memory.insertAll extras).Flat dir
  notData : ∀ dir ∈ config.partitionDirs, ∀ path ∈ memory.listing dir, ∀ pair ∈ ShardFiles.ofIndex? path,
    ∀ extra ∈ extras, extra.1.components ≠ pair.data.components
  unusable : ∀ extra ∈ extras, ∀ pair ∈ ShardFiles.ofIndex? extra.1,
    (memory.insertAll extras).find? pair.data = none ∨
      Disordered (IndexEntry.decodeAll extra.2.bytes).1

namespace Unusable

variable {config : ReadConfig} {memory : Memory} {extras : List (Path × Contents)} {dir path : Path}

theorem find?_eq (h : Unusable config memory extras) (hpath : path ∈ memory.paths) :
    (memory.insertAll extras).find? path = memory.find? path := by
  apply Memory.find?_insertAll_of_ne
  intro extra hextra hsame
  obtain ⟨contents, hfind⟩ := Memory.exists_find?_of_mem_paths hpath
  rw [← Memory.find?_congr (Path.sameAs_iff.mpr hsame), h.unused extra hextra] at hfind
  cases hfind

theorem find?_data_eq (h : Unusable config memory extras) (hdir : dir ∈ config.partitionDirs)
    (hpath : path ∈ memory.listing dir) {pair : ShardFiles} (hpair : ShardFiles.ofIndex? path = some pair) :
    (memory.insertAll extras).find? pair.data = memory.find? pair.data :=
  Memory.find?_insertAll_of_ne (h.notData dir hdir path hpath pair hpair) memory

theorem flat_memory (h : Unusable config memory extras) (hdir : dir ∈ config.partitionDirs) :
    memory.Flat dir :=
  fun path hpath => h.flat dir hdir path (Memory.mem_paths_insertAll hpath)

/-- **What was there is opened as before.** -/
theorem shard?_eq (h : Unusable config memory extras) (hdir : dir ∈ config.partitionDirs)
    (hpath : path ∈ memory.listing dir) {pair : ShardFiles} (hpair : ShardFiles.ofIndex? path = some pair) :
    (memory.insertAll extras).shard? config pair = memory.shard? config pair := by
  obtain ⟨hstored, hin⟩ := List.mem_filter.mp hpath
  have hindex : (memory.insertAll extras).bytes? pair.index = memory.bytes? pair.index := by
    rw [ShardFiles.index_of_ofIndex? hpair, Memory.bytes?, h.find?_eq hstored, Memory.bytes?]
  have hcontains : (memory.insertAll extras).contains pair.data = memory.contains pair.data := by
    rw [Memory.contains_data (h.flat dir hdir) hin hpair, Memory.contains_data (h.flat_memory hdir) hin hpair,
      h.find?_data_eq hdir hpath hpair]
  rw [Memory.shard?, Memory.shard?, hcontains, indexEntries, indexEntries, hindex]

/-- **What is added does not open.** -/
theorem shard?_extra (h : Unusable config memory extras) (hdir : dir ∈ config.partitionDirs)
    {extra : Path × Contents} (hextra : extra ∈ extras) (hin : extra.1.isDirectlyIn dir = true)
    {pair : ShardFiles} (hpair : ShardFiles.ofIndex? extra.1 = some pair) :
    (memory.insertAll extras).shard? config pair = none := by
  rw [Memory.shard?]
  rcases h.unusable extra hextra pair hpair with hnone | hdisordered
  · rw [if_neg]
    rw [Memory.contains_data (h.flat dir hdir) hin hpair, hnone]
    decide
  · have hentries : indexEntries (memory.insertAll extras).bytes? pair.index =
        (IndexEntry.decodeAll extra.2.bytes).1 := by
      rw [indexEntries, ShardFiles.index_of_ofIndex? hpair,
        Memory.bytes?_of_find? (Memory.find?_insertAll h.distinct hextra memory), Option.getD_some]
    rw [hentries]
    split
    · cases hplan : ReadPlan.ofEntries (IndexEntry.decodeAll extra.2.bytes).1 config.byteLimit
          config.entryLimit with
      | error fault => rfl
      | ok reads => exact absurd (ReadPlan.ofEntries_eq_ok_iff.mp hplan).1 (hdisordered.checkOrdered_ne 0)
    · rfl

theorem shardsIn_eq (h : Unusable config memory extras) :
    (memory.insertAll extras).shardsIn config = memory.shardsIn config := by
  have hfilter : ∀ (memory : Memory) (dir : Path), memory.shardsOf config (memory.listing dir) =
      memory.paths.filterMap fun path =>
        if path.isDirectlyIn dir then (ShardFiles.ofIndex? path).bind (memory.shard? config) else none := by
    intro memory dir
    rw [Memory.shardsOf, Memory.listing, List.filterMap_filter]
  rw [Memory.shardsIn, Memory.shardsIn]
  apply List.flatMap_congr
  intro dir hdir
  rw [hfilter, hfilter, Memory.filterMap_paths_insertAll]
  · apply List.filterMap_congr
    intro path hpath
    by_cases hin : path.isDirectlyIn dir = true
    · rw [if_pos hin, if_pos hin]
      cases hpair : ShardFiles.ofIndex? path with
      | none => rfl
      | some pair => exact h.shard?_eq hdir (List.mem_filter.mpr ⟨hpath, hin⟩) hpair
    · rw [if_neg hin, if_neg hin]
  · intro extra hextra
    by_cases hin : extra.1.isDirectlyIn dir = true
    · rw [if_pos hin]
      cases hpair : ShardFiles.ofIndex? extra.1 with
      | none => rfl
      | some pair => exact h.shard?_extra hdir hextra hin hpair
    · rw [if_neg hin]

end Unusable

/-! ## Reading shards that were found -/

section Reading

variable {own : Path → Prop}

namespace ShardReader

/-- The data file of a shard, and what its handle is on, are of these files. -/
structure Owns (own : Path → Prop) (shard : ShardReader) : Prop where
  data : own shard.files.data
  handle : ∀ reader, shard.data = some reader → own reader.path

theorem confined_openData {shard : ShardReader} (h : shard.Owns own) :
    shard.openData.Confined own fun answer => ∀ reader, answer = .ok reader → own reader.path := by
  rw [openData]
  cases hdata : shard.data with
  | some reader =>
    apply confined_done
    intro other hother
    cases hother
    exact h.handle reader hdata
  | none =>
    refine confined_retried shard.retryPolicy (Confined.mono (confined_call h.data) ?_)
    intro answer hfits reader hreader
    rw [hfits reader hreader]
    exact h.data

theorem confined_read {shard : ShardReader} (h : shard.Owns own) (index : Nat) :
    (shard.read index).Confined own fun result => result.2.Owns own := by
  rw [read]
  cases shard.reads[index]? with
  | none => exact h
  | some planned =>
    refine (confined_openData h).bind fun answer hanswer => ?_
    cases answer with
    | error error => exact h
    | ok reader =>
      have hreader : own reader.path := hanswer reader rfl
      have howns : Owns own { shard with data := some reader } := by
        refine ⟨h.data, fun other hother => ?_⟩
        cases hother
        exact hreader
      have hread : (retried shard.retryPolicy (Program.readAt reader planned.offset planned.length)).Confined own
          fun answer => ∀ bytes, answer = .ok bytes → True :=
        confined_retried shard.retryPolicy (Confined.mono (confined_call hreader) fun _ _ _ _ => trivial)
      refine hread.bind fun answer _ => ?_
      cases answer <;> exact howns

theorem Owns.close {shard : ShardReader} (h : shard.Owns own) : shard.close.Owns own := ⟨h.data, nofun⟩

end ShardReader

namespace PartitionReader

theorem confined_advance (index : Nat) (passed ahead : List ShardReader) (base : Nat)
    (hpassed : ∀ shard ∈ passed, shard.Owns own) (hahead : ∀ shard ∈ ahead, shard.Owns own) :
    (advance index passed base ahead).Confined own fun result => ∀ shard ∈ result.2.shards, shard.Owns own := by
  induction ahead generalizing passed base with
  | nil =>
    apply confined_done
    simpa [shards] using hpassed
  | cons shard rest ih =>
    rw [List.forall_mem_cons] at hahead
    rw [advance]
    split
    · refine (ShardReader.confined_read hahead.1 _).bind fun result hresult => ?_
      apply confined_done
      rw [shards, List.forall_mem_append, List.forall_mem_cons]
      exact ⟨hpassed, hresult, hahead.2⟩
    · refine ih _ _ ?_ hahead.2
      rw [List.forall_mem_append, List.forall_mem_singleton]
      exact ⟨hpassed, hahead.1.close⟩

theorem confined_read {reader : PartitionReader} (h : ∀ shard ∈ reader.shards, shard.Owns own) (index : Nat) :
    (reader.read index).Confined own fun result => ∀ shard ∈ result.2.shards, shard.Owns own := by
  rw [read]
  split
  · exact confined_done h
  · rw [shards, List.forall_mem_append] at h
    exact confined_advance index _ _ _ h.1 h.2

theorem confined_readEach (indices : List Nat) {reader : PartitionReader}
    (h : ∀ shard ∈ reader.shards, shard.Owns own) :
    (readEach indices reader).Confined own fun result => ∀ shard ∈ result.2.shards, shard.Owns own := by
  induction indices generalizing reader with
  | nil => exact confined_done h
  | cons index rest ih =>
    exact (confined_read h index).bind fun _ hread => (ih hread).bind fun _ hrest => confined_done hrest

/-- Open the partition and make reads, and answer the reader that was opened and what the reads answer. -/
def openAndRead (config : ReadConfig) (indices : List Nat) :
    Program (Except Error (PartitionReader × List (Except Error (Option Batch)))) := do
  match ← PartitionReader.open config with
  | .error error => return .error error
  | .ok reader =>
    let (answers, _) ← readEach indices reader
    return .ok (reader, answers)

theorem run_open {config : ReadConfig} (hcheck : config.check = .ok ()) (memory : Memory) :
    (PartitionReader.open config).run Memory.handler memory = (.ok (ofShards (memory.shardsIn config)), memory) := by
  obtain ⟨hanswer, hmemory⟩ := Memory.yields_openDirs memory config config.partitionDirs memory rfl
  rw [PartitionReader.open, hcheck]
  dsimp only
  rw [run_bind, hanswer, hmemory]
  rfl

end PartitionReader

end Reading

/-! ## Opening beside them -/

variable {config : ReadConfig} {memory : Memory} {extras : List (Path × Contents)}

/-- What is added is none of the files that the shards are read from. -/
theorem Unusable.owns (h : Unusable config memory extras) {shard : ShardReader}
    (hshard : shard ∈ memory.shardsIn config) :
    shard.Owns fun path => (memory.insertAll extras).find? path = memory.find? path := by
  obtain ⟨dir, hdir, path, hpath, hin, pair, hpair, hfound⟩ := Memory.mem_shardsIn_iff.mp hshard
  obtain ⟨hfiles, hopened⟩ := Memory.shard?_eq_some hfound
  constructor
  · rw [hfiles]
    exact h.find?_data_eq hdir (List.mem_filter.mpr ⟨hpath, hin⟩) hpair
  · intro reader hreader
    rw [hopened.unread] at hreader
    cases hreader

/-- **Files that are of no shard never disturb those that are.** Take a memory, and the same memory with any number
of such files beside it. The partition opens on both or on neither, to the same shards with the same plans in the
same order, and then any reads, in whatever order they are asked for, answer the same. -/
theorem extras_never_disturb (h : Unusable config memory extras) (indices : List Nat) :
    ((PartitionReader.openAndRead config indices).run Memory.handler (memory.insertAll extras)).1 =
      ((PartitionReader.openAndRead config indices).run Memory.handler memory).1 := by
  rw [PartitionReader.openAndRead, run_bind, run_bind]
  cases hcheck : config.check with
  | error fault =>
    rw [PartitionReader.open, hcheck]
    rfl
  | ok =>
    rw [PartitionReader.run_open hcheck, PartitionReader.run_open hcheck, h.shardsIn_eq]
    -- What is read from here on is files that are the same in both memories.
    have howns : ∀ shard ∈ (PartitionReader.ofShards (memory.shardsIn config)).shards,
        shard.Owns fun path => (memory.insertAll extras).find? path = memory.find? path :=
      fun shard hshard => h.owns hshard
    have hagree : Memory.Agree (fun path => (memory.insertAll extras).find? path = memory.find? path)
        (memory.insertAll extras) memory := fun _ hpath => hpath
    obtain ⟨hanswers, -⟩ := Memory.agree_run (PartitionReader.confined_readEach indices howns) hagree
    dsimp only
    rw [run_bind, run_bind, hanswers]
    rfl

/-! ## A directory with all kinds of files -/

def extrasConfig : ReadConfig := { basePaths := [.ofText "m"], app := "a", retry := .fixed 0 0 }

/-- An entry of as many bytes at an offset. -/
def entryOf (offset : UInt64) (length : UInt32) : IndexEntry := ⟨length, length, 0, ⟨0⟩, 0, offset⟩

theorem length_payload_lt : (Packed.ofBytes [97]).length < UInt64.size := by decide

/-- One shard of one block. -/
def oneShard : Memory :=
  ((Memory.mk []).insert (.ofText "m/a/0/0-0/w_0.data") ⟨.ofBytes [97], length_payload_lt⟩).insert
    (.ofText "m/a/0/0-0/w_0.index") ⟨.ofBytes (entryOf 0 1).encode, by decide⟩

/-- A copy of an index, an index without a data file, and one with entries that overlap and with a data file. -/
def allKinds : List (Path × Contents) :=
  [(.ofText "m/a/0/0-0/w_0.cp.index", ⟨.ofBytes (entryOf 0 1).encode, by decide⟩),
    (.ofText "m/a/0/0-0/u_0.index/", ⟨.ofBytes (entryOf 0 1).encode, by decide⟩),
    (.ofText "m/a/0/0-0/x_0.index", ⟨.ofBytes ((entryOf 0 2).encode ++ (entryOf 1 1).encode), by decide⟩),
    (.ofText "m/a/0/0-0/x_0.data", ⟨.ofBytes [98, 99], by decide⟩)]

/-- The one shard is all that opens, and its one read answers its block. -/
theorem extras_never_disturb_allKinds :
    Unusable extrasConfig oneShard allKinds ∧
    (oneShard.insertAll allKinds).paths.length = 6 ∧
    ((PartitionReader.openAndRead extrasConfig [0, 1]).run Memory.handler
      (oneShard.insertAll allKinds)).1.toOption.map (fun opened => opened.2.map Except.toOption) =
        some [some (some ⟨[97], [⟨0, 1, ⟨0⟩, 0, 0, 1⟩]⟩), some none] := by
  have h : Unusable extrasConfig oneShard allKinds :=
    ⟨by decide +kernel, by decide +kernel, by decide +kernel, by decide +kernel, by decide +kernel⟩
  refine ⟨h, by decide +kernel, ?_⟩
  rw [extras_never_disturb h [0, 1]]
  decide +kernel

end BlockShuffle
