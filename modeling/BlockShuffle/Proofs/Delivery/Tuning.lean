import Mathlib
import BlockShuffle.Proofs.Delivery.Reading
import BlockShuffle.Proofs.Reading.Finding

/-!
# Limits and order do not show in the outcome

The limits of the settings decide in what chunks an index is read and in what batches the data. Neither is seen by who
reads to the end: the copies that are delivered are those of the reference, and the reference knows the files only
(`outcome_independent_of_tuning`).

The order of the shards is seen, because of several copies of a block it is the first that is delivered. But only there:
what is processed, what is superseded and how blocks are counted is said of the copies whatever their order
(`AccountsFor.sameOutcome`), so it is the same for every order of the shards.

Both halves go through the reference and not through one another: a run with some limits, and a run with others,
are each compared with what the files list, and then with each other by transitivity. So no relation between two
runs with different batches is needed, which would have to line up batches that overlap. The comparison is of
readings to the end. In the middle, what was delivered so far depends on the limits, and nothing is said about
it.

The data of every listed block has to be there and to have its checksum. Where a block is damaged its whole
batch is not delivered, and what a batch is depends on the limits, so there the outcome does too. Limits of zero
are refused when a partition is opened, so there is no case for them.
-/

set_option autoImplicit false

namespace BlockShuffle

open Storage Program

/-! ## Copies of some files -/

/-- The copies that the index of a pair lists. -/
def ShardFiles.copies (files : Path → Option Bytes) (pair : ShardFiles) : List BlockCopy :=
  (indexEntries files pair.index).map (BlockCopy.ofEntry ((files pair.data).getD []))

/-- What is asked of a data file is asked of the files of its shard. -/
theorem holdsEntries_of_mem_files {files : Path → Option Bytes} {shards : List ShardReader}
    (h : ∀ shard ∈ shards, HoldsEntries files shard) {shard : ShardReader}
    (hshard : shard.files ∈ shards.map ShardReader.files) : HoldsEntries files shard := by
  obtain ⟨other, hother, hfiles⟩ := List.mem_map.mp hshard
  have hholds := h other hother
  rw [HoldsEntries, hfiles] at hholds
  exact hholds

/-! ## Copies in any order -/

namespace BlockCopy

variable {expected tasks : IdSet} {copies others : List BlockCopy}

/-- The order of the copies decides which of them are delivered, but not of which ids. -/
theorem perm_ids_deliveries (h : copies.Perm others) :
    (ids (deliveries expected tasks copies)).Perm (ids (deliveries expected tasks others)) := by
  rw [deliveries, deliveries, List.perm_ext_iff_of_nodup (nodup_ids_firsts _) (nodup_ids_firsts _)]
  intro id
  rw [mem_ids_firsts, mem_ids_firsts]
  exact ((h.filter _).map _).mem_iff

theorem length_deliveries_of_perm (h : copies.Perm others) :
    (deliveries expected tasks copies).length = (deliveries expected tasks others).length := by
  have hids : (ids (deliveries expected tasks copies)).Perm (ids (deliveries expected tasks others)) :=
    perm_ids_deliveries h
  have hlength := hids.length_eq
  rwa [ids, ids, List.length_map, List.length_map] at hlength

end BlockCopy

namespace Reconciler

open BlockCopy

/-- Two reconcilers that have come to the same. -/
structure SameOutcome (final other : Reconciler) : Prop where
  processed : final.processed = other.processed
  superseded : final.superseded = other.superseded
  checkComplete : final.checkComplete = other.checkComplete
  blocksDelivered : final.stats.blocksDelivered = other.stats.blocksDelivered
  unexpectedBlocks : final.stats.unexpectedBlocks = other.stats.unexpectedBlocks
  filteredByTask : final.stats.filteredByTask = other.stats.filteredByTask
  duplicateBlocks : final.stats.duplicateBlocks = other.stats.duplicateBlocks

/-- **The accounts do not depend on the order of the copies.** -/
theorem AccountsFor.sameOutcome {expected tasks : IdSet} {copies others : List BlockCopy} {final other : Reconciler}
    (h : AccountsFor expected tasks copies final) (h' : AccountsFor expected tasks others other)
    (hperm : copies.Perm others) (hexpected : final.expected = other.expected) : SameOutcome final other := by
  have hprocessed : final.processed = other.processed := by
    apply Std.ExtTreeSet.ext_mem
    intro id
    rw [h.mem_processed, h'.mem_processed]
    exact (perm_ids_deliveries hperm).mem_iff
  have hsuperseded : final.superseded = other.superseded := by
    apply Std.ExtTreeSet.ext_mem
    intro id
    rw [h.mem_superseded, h'.mem_superseded]
    simp only [hperm.mem_iff]
  have hblocks : final.stats.blocksDelivered = other.stats.blocksDelivered := by
    rw [h.blocksDelivered, h'.blocksDelivered, length_deliveries_of_perm hperm]
  refine ⟨hprocessed, hsuperseded, ?_, hblocks, ?_, ?_, ?_⟩
  · rw [checkComplete, checkComplete, missing, missing, hexpected, hprocessed, hsuperseded]
  · rw [h.unexpectedBlocks, h'.unexpectedBlocks, hperm.countP_eq]
  · rw [h.filteredByTask, h'.filteredByTask, hperm.countP_eq]
  · have hcount := h.duplicateBlocks
    rw [hperm.countP_eq, ← h'.duplicateBlocks, hblocks] at hcount
    exact Nat.add_left_cancel hcount

/-! ## Reading to the end -/

section Drain

variable {σ : Type} {handler : Handler σ} {s : σ} {files : Path → Option Bytes}

/-- Reading until there is no more: these batches are handed out, then the stream ends, and nothing fails. -/
def Drains (handler : Handler σ) (state : Reconciler) (s : σ) (found : List Batch) (final : Reconciler) : Prop :=
  ∃ s', (serve (List.replicate (found.length + 1) .read) state).run handler s =
    ((found.map (fun batch => .ok (some batch)) ++ [.ok none], final), s')

theorem listed_eq_flatMap (shards : List ShardReader) :
    listed files shards = (shards.map ShardReader.files).flatMap (ShardFiles.copies files) := by
  rw [List.flatMap_map]
  rfl

theorem perm_listed {shards others : List ShardReader}
    (h : (shards.map ShardReader.files).Perm (others.map ShardReader.files)) :
    (listed files shards).Perm (listed files others) := by
  rw [listed_eq_flatMap, listed_eq_flatMap]
  exact h.flatMap_right _

/-- What opens has limits. -/
theorem limits_pos_of_open {config : ReadConfig} {expected tasks : IdSet} {opened : Reconciler} {s₀ : σ}
    (h : (Reconciler.open config expected tasks).run handler s = (.ok opened, s₀)) :
    0 < config.entryLimit ∧ 0 < config.byteLimit := by
  rw [Reconciler.open] at h
  cases hcheck : config.check with
  | error fault =>
    rw [hcheck] at h
    cases h
  | ok _ =>
    rw [ReadConfig.check] at hcheck
    split_ifs at hcheck with _ _ _ hentry hbyte
    exact ⟨Nat.pos_of_ne_zero hentry, Nat.pos_of_ne_zero hbyte⟩

/-- Shards in any order are read to the end, and what they come to is said by their files. -/
theorem exists_drains (harchive : Archive handler s files) {config : ReadConfig} {shards : List ShardReader}
    (hopened : ∀ shard ∈ shards, shard.OpenedFrom files config) (hholds : ∀ shard ∈ shards, HoldsEntries files shard)
    {expected tasks : IdSet} {checksum : Checksum}
    (hverifies : ∀ copy ∈ listed files shards, copy.isEligible expected tasks = true →
      checksum copy.payload = copy.crc) :
    ∃ found final, Drains handler (fresh shards expected tasks checksum) s found final ∧
      found.flatMap Batch.copies = deliveries expected tasks (listed files shards) ∧
      AccountsFor expected tasks (listed files shards) final ∧ final.expected = expected := by
  have hwanted : ∀ copy ∈ deliveries expected tasks (listed files shards), checksum copy.payload = copy.crc := by
    intro copy hcopy
    obtain ⟨hlisted, heligible⟩ := List.mem_filter.mp ((firsts_sublist _).subset hcopy)
    exact hverifies copy hlisted heligible
  obtain ⟨found, final, s', hrun, -, -, hall⟩ := reconciles_of_opened harchive.offers hopened hholds hwanted rfl
  refine ⟨found, final, ⟨s', hrun⟩, ?_, hall.accountsFor, hall.settings.1⟩
  rw [hall.delivered_eq, wanted_fresh]

/-- **Limits and order do not show in the outcome.** A partition was opened, the data file of every shard holds what
its index lists, and every copy that may be delivered verifies. Then with any other limits it opens too, with shards of
the same files in the same order. Put both into any order: both are read to the end without an error; where the orders
agree they deliver the same copies in the same order, id, attempt and payload; and in any case the same blocks are
processed, the same are superseded, completeness is judged alike, and the blocks are counted alike. -/
theorem outcome_independent_of_tuning (harchive : Archive handler s files) {config : ReadConfig}
    {expected tasks : IdSet} {opened : Reconciler} {s₀ : σ}
    (hopen : (Reconciler.open config expected tasks).run handler s = (.ok opened, s₀))
    (hholds : ∀ shard ∈ opened.reader.shards, HoldsEntries files shard) (checksum : Checksum)
    (hverifies : ∀ copy ∈ listed files opened.reader.shards, copy.isEligible expected tasks = true →
      checksum copy.payload = copy.crc)
    {entryLimit byteLimit : Nat} (hentry : 0 < entryLimit) (hbyte : 0 < byteLimit) :
    ∃ other s₁,
      (Reconciler.open { config with entryLimit, byteLimit } expected tasks).run handler s = (.ok other, s₁) ∧
      other.reader.shards.map ShardReader.files = opened.reader.shards.map ShardReader.files ∧
      { opened with checksum } = fresh opened.reader.shards expected tasks checksum ∧
      { other with checksum } = fresh other.reader.shards expected tasks checksum ∧
      ∀ first second : List ShardReader, first.Perm opened.reader.shards → second.Perm other.reader.shards →
        ∃ found final found' final',
          Drains handler (fresh first expected tasks checksum) s₀ found final ∧
          Drains handler (fresh second expected tasks checksum) s₁ found' final' ∧
          (first.map ShardReader.files = second.map ShardReader.files →
            found.flatMap Batch.copies = found'.flatMap Batch.copies) ∧
          SameOutcome final final' := by
  obtain ⟨hentry₀, hbyte₀⟩ := limits_pos_of_open hopen
  obtain ⟨opens, hsame⟩ := exists_files_of_open harchive config expected tasks
  obtain ⟨hfiles₀, -⟩ := hsame config.entryLimit config.byteLimit hentry₀ hbyte₀ s rfl
  obtain ⟨hfiles₁, -⟩ := hsame entryLimit byteLimit hentry hbyte s rfl
  obtain ⟨hfrom, hs₀⟩ := yields_openedFrom harchive config expected tasks s rfl
  obtain ⟨hfrom', hs₁⟩ := yields_openedFrom harchive { config with entryLimit, byteLimit } expected tasks s rfl
  rw [hopen] at hfiles₀ hfrom hs₀
  subst hs₀
  rcases hother : (Reconciler.open { config with entryLimit, byteLimit } expected tasks).run handler s₀ with
    ⟨error | other, s₁⟩
  · rw [hother, ← hfiles₀] at hfiles₁
    cases hfiles₁
  rw [hother] at hfiles₁ hfrom' hs₁
  subst hs₁
  obtain ⟨shards, rfl, hopened⟩ := hfrom opened rfl
  obtain ⟨shards', rfl, hopened'⟩ := hfrom' other rfl
  have hfiles : shards'.map ShardReader.files = shards.map ShardReader.files :=
    Except.ok.inj (hfiles₁.trans hfiles₀.symm)
  -- The limits are gone from here on. Only the order of the files can differ, and nothing that is compared depends
  -- on it but the order of delivery.
  refine ⟨_, _, rfl, hfiles, rfl, rfl, fun first second hfirst hsecond => ?_⟩
  have hlisted : (listed files first).Perm (listed files shards) := perm_listed (hfirst.map _)
  have hlisted' : (listed files second).Perm (listed files shards) := by
    apply perm_listed
    rw [← hfiles]
    exact hsecond.map _
  obtain ⟨found, final, hdrains, hfound, haccounts, hexpected⟩ := exists_drains harchive
    (fun shard hshard => hopened shard (hfirst.subset hshard))
    (fun shard hshard => hholds shard (hfirst.subset hshard))
    (fun copy hcopy => hverifies copy (hlisted.subset hcopy))
  obtain ⟨found', final', hdrains', hfound', haccounts', hexpected'⟩ := exists_drains harchive
    (fun shard hshard => hopened' shard (hsecond.subset hshard))
    (fun shard hshard => holdsEntries_of_mem_files hholds
      (hfiles ▸ List.mem_map_of_mem (hsecond.subset hshard)))
    (fun copy hcopy => hverifies copy (hlisted'.subset hcopy))
  refine ⟨found, final, found', final', hdrains, hdrains', fun horder => ?_, ?_⟩
  · rw [hfound, hfound', listed_eq_flatMap, listed_eq_flatMap, horder]
  · exact haccounts.sameOutcome haccounts' (hlisted.trans hlisted'.symm) (hexpected.trans hexpected'.symm)

end Drain

/-! ## One block in two shards -/

/-- The block is listed twice under one root, and once under another. -/
def threeCopies : Memory :=
  (blockTwice.insert (.ofText "n/a/0/0-0/w_0.data") ((Contents.ofBytes? [97]).getD .empty)).insert
    (.ofText "n/a/0/0-0/w_0.index") ((Contents.ofBytes? (entryOfA 0).encode).getD .empty)

def threeCopiesConfig : ReadConfig := { oneBlockConfig with basePaths := [⟨['m']⟩, ⟨['n']⟩] }

/-- With limits of one entry there is one more read, and the shards are read the other way round. -/
theorem outcome_independent_of_tuning_threeCopies :
    ∃ opened s₀ other s₁ found final found' final',
      (Reconciler.open threeCopiesConfig {0} {0}).run Memory.handler threeCopies = (.ok opened, s₀) ∧
      (Reconciler.open { threeCopiesConfig with entryLimit := 1, byteLimit := 1 } {0} {0}).run Memory.handler
        threeCopies = (.ok other, s₁) ∧
      opened.reader.readCount = 2 ∧ other.reader.readCount = 3 ∧
      Drains Memory.handler (fresh opened.reader.shards {0} {0} crc32) s₀ found final ∧
      Drains Memory.handler (fresh other.reader.shards.reverse {0} {0} crc32) s₁ found' final' ∧
      SameOutcome final final' := by
  have hfacts : ((Reconciler.open threeCopiesConfig {0} {0}).run Memory.handler threeCopies).1.toOption.any
      (fun opened => opened.reader.readCount = 2 ∧
        (∀ shard ∈ opened.reader.shards, HoldsEntries threeCopies.bytes? shard) ∧
        ∀ copy ∈ listed threeCopies.bytes? opened.reader.shards, crc32 copy.payload = copy.crc) = true := by
    decide +kernel
  have hcount : ((Reconciler.open { threeCopiesConfig with entryLimit := 1, byteLimit := 1 } {0} {0}).run
      Memory.handler threeCopies).1.toOption.any (fun other => other.reader.readCount = 3) = true := by
    decide +kernel
  rcases hrun : (Reconciler.open threeCopiesConfig {0} {0}).run Memory.handler threeCopies with ⟨error | opened, s₀⟩
  · rw [hrun] at hfacts
    cases hfacts
  · rw [hrun] at hfacts
    simp only [Except.toOption, Option.any_some, decide_eq_true_eq] at hfacts
    obtain ⟨hreads, hholds, hverifies⟩ := hfacts
    obtain ⟨other, s₁, hother, -, -, -, hall⟩ := outcome_independent_of_tuning (Memory.archive threeCopies) hrun hholds
      crc32 (fun copy hcopy _ => hverifies copy hcopy) Nat.one_pos Nat.one_pos
    rw [hother] at hcount
    simp only [Except.toOption, Option.any_some, decide_eq_true_eq] at hcount
    obtain ⟨found, final, found', final', hdrains, hdrains', -, hsame⟩ :=
      hall opened.reader.shards other.reader.shards.reverse (List.Perm.refl _) (List.reverse_perm _)
    exact ⟨opened, s₀, other, s₁, found, final, found', final', rfl, hother, hreads, hcount, hdrains, hdrains', hsame⟩

end Reconciler

end BlockShuffle
