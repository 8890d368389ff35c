import Mathlib
import BlockShuffle.Reconciler
import BlockShuffle.Proofs.IndexEntry
import BlockShuffle.Proofs.Reading.Plan
import BlockShuffle.Proofs.Storage.Steady

/-!
# What an open shard knows

An index is read in chunks and decoded chunk by chunk. `yields_readIndex` says that the chunks do not show:
what comes out are the entries of the file as a whole. Chunks are whole entries, so an entry is never cut
in two; a chunk size that is capped is no exception, because then the one chunk is all of the file.

From there on a shard is what its index says (`ShardReader.OpenedFrom`): the reads that are planned for the
entries, and nothing else. Every shard of a partition that was opened is such a shard (`yields_open`).

The statements are about any storage that answers alike as long as it is looked at (`Serves`), not about memory,
so that they hold of storages that fail now and then, or are on a disk, once these are shown to serve. An index
that is not there, one that shrinks while it is read and one that nobody could plan are all answered with no
shard, and the postcondition says that much and no more: which of them it was is not kept.

Size and contents are asked for one after the other, and an index that grows in between is read as far as its
size was. With a writer at work that matters, and is the subject of `Proofs/RoundTrip/Live`; here the file does
not change, so all of it is read.
-/

set_option autoImplicit false

namespace BlockShuffle

open Storage Program

/-- The entries of an index file; none, where there is no file. -/
def indexEntries (files : Path → Option Bytes) (path : Path) : List IndexEntry :=
  (IndexEntry.decodeAll ((files path).getD [])).1

variable {σ : Type} {handler : Handler σ} {good : σ → Prop} {files : Path → Option Bytes}

/-! ## The index -/

namespace ShardReader

theorem chunk_whole_or_all (entryLimit : Nat) {left : Nat} (h : left < UInt64.size) :
    min (chunkSize entryLimit) left % IndexEntry.size = 0 ∨ min (chunkSize entryLimit) left = left := by
  by_cases hall : left ≤ chunkSize entryLimit
  · exact Or.inr (Nat.min_eq_right hall)
  · left
    rw [Nat.min_eq_left (by omega)]
    rw [chunkSize] at hall ⊢
    rw [Nat.min_eq_left (by omega), Nat.mul_mod_left]

variable {index : Reader} {bytes : Bytes}

theorem yields_readEntries (hpause : Waits handler good) (hholds : Holds handler good index bytes)
    (policy : RetryPolicy) (entryLimit left : Nat) :
    ∀ offset done, offset + left ≤ bytes.length →
      (readEntries policy index entryLimit offset left done).Yields handler good
        (· = .ok (done.reverse ++ (IndexEntry.decodeAll ((bytes.drop offset).take left)).1)) := by
  induction left using Nat.strong_induction_on with
  | _ left ih =>
    intro offset done hle
    rw [readEntries]
    by_cases hleft : left = 0
    · rw [if_pos hleft]
      apply yields_done
      rw [hleft, List.take_zero, IndexEntry.decodeAll_nil, List.append_nil]
    · rw [if_neg hleft]
      have hlength := hholds.length_lt
      have hchunk : 0 < chunkSize entryLimit := by
        simp only [chunkSize, IndexEntry.size, UInt64.size]
        omega
      have hwhole := chunk_whole_or_all entryLimit (show left < UInt64.size by omega)
      generalize hstep : min (chunkSize entryLimit) left = step at hwhole
      have hread := hholds.readAt offset step (by omega)
      apply (yields_retried_eq hpause policy hread).bind
      rintro _ rfl
      apply (ih (left - step) (by omega) (offset + step) _ (by omega)).mono
      rintro answer rfl
      -- The entries of the chunk and of what is behind it are those of both together.
      have hsplit : (bytes.drop offset).take left = (bytes.drop offset).take step ++
          (bytes.drop (offset + step)).take (left - step) := by
        rw [← List.drop_drop, ← List.take_add, Nat.add_sub_cancel' (by omega)]
      have hentries : (IndexEntry.decodeAll ((bytes.drop offset).take left)).1 =
          (IndexEntry.decodeAll ((bytes.drop offset).take step)).1 ++
            (IndexEntry.decodeAll ((bytes.drop (offset + step)).take (left - step))).1 := by
        rcases hwhole with hwhole | hall
        · rw [hsplit, IndexEntry.decodeAll_append]
          rw [List.length_take, List.length_drop, Nat.min_eq_left (by omega), hwhole]
        · rw [hall, Nat.sub_self, List.take_zero, IndexEntry.decodeAll_nil, List.append_nil]
      rw [hentries, List.reverse_append, List.reverse_reverse, List.append_assoc]

/-- **An index is read as a whole**, whatever the chunks. -/
theorem yields_readIndex (hpause : Waits handler good) (policy : RetryPolicy) {path : Path}
    (hopen : (Program.openRead path).Yields handler good
      fun answer => ∃ reader, answer = .ok reader ∧ Reads handler good reader bytes) (entryLimit : Nat) :
    (readIndex policy path entryLimit).Yields handler good
      (· = .ok (IndexEntry.decodeAll bytes).1) := by
  rw [readIndex]
  apply (yields_retried_ok hpause policy hopen).bind
  rintro _ ⟨index, rfl, hreads⟩
  apply (yields_retried_eq hpause policy hreads.size).bind
  rintro _ rfl
  apply (yields_readEntries hpause hreads.holds policy entryLimit _ 0 [] (by omega)).mono
  rintro answer rfl
  rw [List.drop_zero, IndexEntry.decodeAll_take_whole, List.reverse_nil, List.nil_append]

theorem yields_readIndex_none (hserves : Serves handler good files) (policy : RetryPolicy) {path : Path}
    (hnone : files path = none) (entryLimit : Nat) :
    (readIndex policy path entryLimit).Yields handler good fun answer => ∃ error, answer = .error error := by
  rw [readIndex]
  apply (yields_retried hserves.pause policy (hserves.openRead_none path hnone)).bind
  rintro _ ⟨attempts, outcome, ⟨error, rfl, htransient⟩, rfl⟩
  rw [settle, if_neg (by rw [htransient]; exact Bool.false_ne_true)]
  exact yields_done ⟨_, rfl⟩

/-! ## Shards -/

/-- A shard that nothing was read of yet, with the reads that are planned for the entries of its index. -/
structure OpenedFrom (files : Path → Option Bytes) (config : ReadConfig) (shard : ShardReader) : Prop where
  planned : ReadPlan.ofEntries (indexEntries files shard.files.index) config.byteLimit
    config.entryLimit = .ok shard.reads.toList
  unread : shard.data = none

/-- What is true of every shard that is planned from the entries of its index is true of one that opens. -/
theorem yields_open_each {config : ReadConfig} {pair : ShardFiles} {each : ShardReader → Prop}
    {found : Except RetryError (List IndexEntry) → Prop}
    (hprobe : (retried config.retry (Program.probe pair.data)).Yields handler good fun _ => True)
    (hindex : (readIndex config.retry pair.index config.entryLimit).Yields handler good found)
    (heach : ∀ entries reads, found (.ok entries) →
      ReadPlan.ofEntries entries config.byteLimit config.entryLimit = .ok reads →
      each { files := pair, retryPolicy := config.retry, reads := reads.toArray, blockCount := entries.length }) :
    (ShardReader.open pair config.entryLimit config.byteLimit config.retry).Yields handler good
      fun answer => ∀ shard, answer = .ok (some shard) → each shard := by
  rw [ShardReader.open]
  apply hprobe.bind
  rintro (error | present) -
  · exact yields_done nofun
  cases present with
  | false => exact yields_done nofun
  | true =>
    apply hindex.bind
    rintro (error | entries) hfound
    · dsimp only
      split <;> exact yields_done nofun
    · dsimp only
      split
      · exact yields_done nofun
      · rename_i reads hplan
        apply yields_done
        rintro shard ⟨⟩
        exact heach entries reads hfound hplan

theorem yields_open (hserves : Serves handler good files) (config : ReadConfig) (pair : ShardFiles) :
    (ShardReader.open pair config.entryLimit config.byteLimit config.retry).Yields handler good
      fun answer => ∀ shard, answer = .ok (some shard) → shard.OpenedFrom files config := by
  have hprobe := (yields_retried hserves.pause config.retry (hserves.probe pair.data)).mono fun _ _ => trivial
  cases hbytes : files pair.index with
  | none =>
    refine yields_open_each hprobe (yields_readIndex_none hserves config.retry hbytes config.entryLimit) ?_
    rintro entries reads ⟨error, ⟨⟩⟩
  | some bytes =>
    refine yields_open_each hprobe
      (yields_readIndex hserves.pause config.retry (hserves.openRead _ _ hbytes) config.entryLimit) ?_
    rintro entries reads ⟨⟩ hplan
    refine ⟨?_, rfl⟩
    simp only [indexEntries, hbytes, Option.getD_some]
    exact hplan

/-- Whatever the storage answers, of a shard that was opened nothing was read yet. -/
theorem unread_of_open (config : ReadConfig) (pair : ShardFiles) :
    (ShardReader.open pair config.entryLimit config.byteLimit config.retry).Yields handler (fun _ => True)
      fun answer => ∀ shard, answer = .ok (some shard) → shard.data = none :=
  yields_open_each (yields_any _) (yields_any _) fun _ _ _ _ => rfl

end ShardReader

/-! ## Partitions -/

section Each

variable {config : ReadConfig} {each : ShardReader → Prop}

namespace PartitionReader

/-- What is true of every shard that opens is true of all that are opened. -/
theorem yields_openListed
    (hopen : ∀ pair, (ShardReader.open pair config.entryLimit config.byteLimit config.retry).Yields handler
      good fun answer => ∀ shard, answer = .ok (some shard) → each shard) (paths : List Path) :
    (openListed config paths).Yields handler good
      fun answer => ∀ shards, answer = .ok shards → ∀ shard ∈ shards, each shard := by
  induction paths with
  | nil =>
    apply yields_done
    rintro shards h shard hs
    cases h
    simp at hs
  | cons path paths ih =>
    rw [openListed]
    cases ShardFiles.ofIndex? path with
    | none => exact ih
    | some pair =>
      apply (hopen pair).bind
      rintro (error | found) hfound
      · exact yields_done nofun
      · apply ih.bind
        rintro (error | others) hothers
        · exact yields_done nofun
        · apply yields_done
          intro shards h shard hs
          cases h
          rcases List.mem_append.mp hs with hs | hs
          · rw [Option.mem_toList] at hs
            exact hfound shard (congrArg Except.ok hs)
          · exact hothers others rfl shard hs

theorem yields_openDirs (hpause : Waits handler good)
    (hlist : ∀ dir, (Program.list dir).Yields handler good fun _ => True)
    (hopen : ∀ pair, (ShardReader.open pair config.entryLimit config.byteLimit config.retry).Yields handler
      good fun answer => ∀ shard, answer = .ok (some shard) → each shard) (dirs : List Path) :
    (openDirs config dirs).Yields handler good
      fun answer => ∀ shards, answer = .ok shards → ∀ shard ∈ shards, each shard := by
  induction dirs with
  | nil =>
    apply yields_done
    rintro shards h shard hs
    cases h
    simp at hs
  | cons dir dirs ih =>
    rw [openDirs]
    apply (yields_retried hpause config.retry (hlist dir)).bind
    rintro (error | listing) -
    · dsimp only
      split
      · exact ih
      · exact yields_done nofun
    · apply (yields_openListed hopen listing).bind
      rintro (error | found) hfound
      · exact yields_done nofun
      · apply ih.bind
        rintro (error | others) hothers
        · exact yields_done nofun
        · apply yields_done
          intro shards h shard hs
          cases h
          rcases List.mem_append.mp hs with hs | hs
          · exact hfound found rfl shard hs
          · exact hothers others rfl shard hs

end PartitionReader

namespace Reconciler

/-- What is opened is a reconciler over open shards that has read nothing. -/
theorem yields_open_each (hpause : Waits handler good)
    (hlist : ∀ dir, (Program.list dir).Yields handler good fun _ => True)
    (hopen : ∀ pair, (ShardReader.open pair config.entryLimit config.byteLimit config.retry).Yields handler
      good fun answer => ∀ shard, answer = .ok (some shard) → each shard) (expected tasks : IdSet) :
    (Reconciler.open config expected tasks).Yields handler good
      fun answer => ∀ opened, answer = .ok opened →
        ∃ shards, opened = ofReader (PartitionReader.ofShards shards) expected tasks ∧
          ∀ shard ∈ shards, each shard := by
  rw [Reconciler.open]
  cases hcheck : config.check with
  | error fault => exact yields_done nofun
  | ok _ =>
    dsimp only
    split
    · apply yields_done
      intro opened h
      cases h
      exact ⟨[], rfl, by simp⟩
    · rw [PartitionReader.open, hcheck]
      dsimp only
      rw [bind_assoc]
      apply (PartitionReader.yields_openDirs hpause hlist hopen config.partitionDirs).bind
      rintro (error | shards) hshards
      · exact yields_done nofun
      · apply yields_done
        intro opened h
        cases h
        exact ⟨shards, rfl, hshards shards rfl⟩

theorem yields_open (hserves : Serves handler good files) (config : ReadConfig)
    (expected tasks : IdSet) :
    (Reconciler.open config expected tasks).Yields handler good
      fun answer => ∀ opened, answer = .ok opened →
        ∃ shards, opened = ofReader (PartitionReader.ofShards shards) expected tasks ∧
          ∀ shard ∈ shards, shard.OpenedFrom files config :=
  yields_open_each hserves.pause hserves.list (ShardReader.yields_open hserves config) expected tasks

/-- Whatever the storage answers, what is opened has read nothing. -/
theorem unread_of_open (handler : Handler σ) (config : ReadConfig) (expected tasks : IdSet) :
    (Reconciler.open config expected tasks).Yields handler (fun _ => True)
      fun answer => ∀ opened, answer = .ok opened →
        ∃ shards, opened = ofReader (PartitionReader.ofShards shards) expected tasks ∧
          ∀ shard ∈ shards, shard.data = none :=
  yields_open_each (fun _ => yields_any _) (fun _ => yields_any _)
    (ShardReader.unread_of_open config) expected tasks

end Reconciler

end Each

end BlockShuffle
