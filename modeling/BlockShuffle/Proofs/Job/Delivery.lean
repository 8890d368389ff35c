import Mathlib
import BlockShuffle.Proofs.Delivery.Reading
import BlockShuffle.Proofs.Job.Invariant
import BlockShuffle.Proofs.Reading.Discovery

/-!
# A job delivers each block once

Whatever a job has come to, some of its attempts are picked, and their reports say which blocks of a
partition to expect. A reader over all roots delivers each of those blocks once, as it was made, and finds
nothing missing (`delivery_exactly_once`).

Every shard that is found is a pair of some writer, and every pair that has an entry of the partition's range
is found (`exists_pair_of_mem_shardsIn`, `exists_shard_of_mem_entries`). So the indexes list copies of blocks
that attempts made and no others, and every acknowledged block is among them. From there it is the reference
that decides: ids are told apart, so the first eligible copy of an id is a copy of the one block that has it.

The reader comes after the writing: it is run on the memory that the job has come to, and meets no failure.
Reading while somebody writes, and reading with failures, are treated for themselves (`Proofs/RoundTrip/Live`,
`Proofs/Delivery/Transient`), as is a shard that was damaged; a block that is delivered here has the checksum it
was made with, because nothing but writers has touched the files.

What the reader expects is what the picked reports have under the partition that it reads. A report that is not
picked is as if its attempt had been superseded: its blocks may be on storage, in any number of copies, and none
is delivered. That the expected ids and the eligible copies match up is where the attempt's own account comes
in, through the invariant of the job.
-/

set_option autoImplicit false

namespace BlockShuffle

open Storage Program

namespace Job

variable {ι κ : Type} {job : Job ι κ} {state : State ι κ}

/-! ## What a reader of a job is told -/

/-- Settings and expectations for reading a partition of a job: all of its roots, what the reports of some
attempts say of the partition, and these attempts. -/
structure Reads (job : Job ι κ) (state : State ι κ) (picked : Set ι) (config : ReadConfig)
    (expected tasks : IdSet) : Prop where
  check : config.check = .ok ()
  app : config.app = job.app
  shuffle : config.shuffle = job.shuffle
  perRange : config.partitionsPerRange = job.perRange
  roots : ∀ k, ∃ base ∈ config.basePaths,
    base.components = (job.writer k).layout.base.components
  expected : ∀ raw, raw ∈ expected ↔
    ∃ i ∈ picked, raw ∈ (state.attempt i).finish.succeededIn config.partition
  tasks : ∀ task, task ∈ tasks ↔ ∃ i ∈ picked, (state.attempt i).finish.task = task

/-! ## What is found -/

section Found

variable {config : ReadConfig} {shard : ShardReader}

theorem Sound.backed (h : job.Sound state) (k : κ) (n : UInt32) :
    Backed (job.Allowed state k) (state.memory.bytes? (job.files k n).data)
      (state.memory.bytes? (job.files k n).index) := by
  rw [files, ← (h.sameShard k).filesOf_eq]
  exact (h.sound k).keeps.backed n

/-- A file that memory lists under a writer's path is listed as the writer spells it. -/
theorem Sound.index_mem_paths (h : job.Sound state) {k : κ} {n : UInt32} {contents : Contents}
    (hfind : state.memory.find? (job.files k n).index = some contents) :
    (job.files k n).index ∈ state.memory.paths := by
  obtain ⟨stored, hstored, heq⟩ := Memory.exists_mem_paths hfind
  obtain ⟨l, m, rfl | rfl⟩ := h.listed stored hstored
  · obtain ⟨-, -, hextension⟩ := job.file_inj isExtension_data isExtension_index heq
    cases hextension
  · obtain ⟨rfl, rfl, -⟩ := job.file_inj isExtension_index isExtension_index heq
    exact hstored

/-- A shard that is found is a pair of some writer. -/
theorem exists_pair_of_mem_shardsIn (h : job.Sound state) (hshard : shard ∈ state.memory.shardsIn config) :
    shard.OpenedFrom state.memory.bytes? config ∧ ∃ k n, shard.files = job.files k n := by
  obtain ⟨dir, -, path, hpath, -, pair, hpair, hsome⟩ := Memory.mem_shardsIn_iff.mp hshard
  obtain ⟨hfiles, hopened⟩ := Memory.shard?_eq_some hsome
  refine ⟨hopened, ?_⟩
  obtain ⟨k, n, rfl | rfl⟩ := h.listed path hpath
  · have hnone : ShardFiles.ofIndex? (job.files k n).data = none := Layout.ofIndex?_data (job.named k).shard
    cases hpair.symm.trans hnone
  · have hindex : ShardFiles.ofIndex? (job.files k n).index = some (job.files k n) :=
      Layout.ofIndex?_index (job.named k).shard
    cases hpair.symm.trans hindex
    exact ⟨k, n, hfiles⟩

/-- A pair with an entry is found by every reader of its range. -/
theorem exists_shard_of_mem_entries (h : job.Sound state) {picked : Set ι} {expected tasks : IdSet}
    (hreads : job.Reads state picked config expected tasks) {k : κ} {n : UInt32}
    (hrange : (job.writer k).range = config.range) {entry : IndexEntry}
    (hentry : entry ∈ entriesOf (state.memory.bytes? (job.files k n).index)) :
    ∃ shard ∈ state.memory.shardsIn config, shard.files = job.files k n := by
  obtain ⟨bytes, hdata, -⟩ := (h.backed k n).backed entry hentry
  obtain ⟨front, hfront, -⟩ := Option.map_eq_some_iff.mp hdata
  -- The index is there, since it has an entry.
  cases hindex : state.memory.find? (job.files k n).index with
  | none =>
    rw [Memory.bytes?, hindex] at hentry
    simp at hentry
  | some index =>
    obtain ⟨base, hbase, hcomponents⟩ := hreads.roots k
    obtain ⟨happ, hshuffle, hname⟩ := job.layout_eq k
    have hdir : ((job.writer k).layout.partitionDir (job.writer k).range).components =
        (Layout.partitionDir ⟨base, config.app, config.shuffle⟩ config.range).components := by
      rw [Layout.components_partitionDir (job.named k).app,
        Layout.components_partitionDir (hreads.app ▸ job.app_isName), hcomponents, hreads.app,
        hreads.shuffle, happ, hshuffle, hrange]
    have hin : (job.files k n).index.isDirectlyIn
        (Layout.partitionDir ⟨base, config.app, config.shuffle⟩ config.range) = true :=
      (Path.isDirectlyIn_iff (Layout.components_file hname isExtension_index)).mpr hdir
    have hmem : Layout.partitionDir ⟨base, config.app, config.shuffle⟩ config.range ∈
        config.partitionDirs :=
      List.mem_map_of_mem (List.mem_map_of_mem hbase)
    have hrecognised : ShardFiles.ofIndex? (job.files k n).index = some (job.files k n) :=
      Layout.ofIndex?_index hname
    obtain ⟨shard, hshard⟩ :=
      Option.isSome_iff_exists.mp ((Memory.isSome_shard? hfront).mpr (h.backed k n).ordered)
    exact ⟨shard, Memory.mem_shardsIn_iff.mpr
      ⟨_, hmem, _, h.index_mem_paths hindex, hin, _, hrecognised, hshard⟩, (Memory.shard?_eq_some hshard).1⟩

/-- Every entry of a pair is the entry of a block that may be in it, and its data file holds the block. -/
theorem exists_block_of_mem_entries (h : job.Sound state) {k : κ} {n : UInt32}
    (hfiles : shard.files = job.files k n) {entry : IndexEntry}
    (hentry : entry ∈ indexEntries state.memory.bytes? shard.files.index) :
    ∃ data, state.memory.bytes? shard.files.data = some data ∧
      ∃ block, job.Allowed state k block ∧ Backs data entry block := by
  rw [hfiles] at hentry ⊢
  exact (h.backed k n).backed entry hentry

theorem holdsEntries_of_mem_shardsIn (h : job.Sound state)
    (hshard : shard ∈ state.memory.shardsIn config) : HoldsEntries state.memory.bytes? shard := by
  obtain ⟨-, k, n, hfiles⟩ := exists_pair_of_mem_shardsIn h hshard
  intro entry hentry
  obtain ⟨data, hdata, block, -, hbacks⟩ := exists_block_of_mem_entries h hfiles hentry
  exact ⟨data, hdata, hbacks.stop_le⟩

end Found

/-! ## What is listed -/

section Listed

open Reconciler BlockCopy

variable {config : ReadConfig} {copy : BlockCopy}

/-- **Every copy that is listed is of a block that some attempt made.** -/
theorem exists_block_of_mem_listed (h : job.Sound state)
    (hcopy : copy ∈ Reconciler.listed state.memory.bytes? (state.memory.shardsIn config)) :
    ∃ i, ∃ block ∈ state.made i, copy = .ofBlock block := by
  obtain ⟨shard, hshard, hcopy⟩ := List.mem_flatMap.mp hcopy
  obtain ⟨entry, hentry, rfl⟩ := List.mem_map.mp hcopy
  obtain ⟨-, k, n, hfiles⟩ := exists_pair_of_mem_shardsIn h hshard
  obtain ⟨data, hdata, block, ⟨⟨i, hblock⟩, -⟩, hbacks⟩ := exists_block_of_mem_entries h hfiles hentry
  rw [hdata, Option.getD_some, hbacks.ofEntry_eq]
  exact ⟨i, block, hblock, rfl⟩

theorem verifies_of_mem_listed (h : job.Sound state)
    (hcopy : copy ∈ Reconciler.listed state.memory.bytes? (state.memory.shardsIn config)) :
    crc32 copy.payload = copy.crc := by
  obtain ⟨i, block, hblock, rfl⟩ := exists_block_of_mem_listed h hcopy
  exact ((h.makes i).madeBy block hblock).crc_eq.symm

variable {picked : Set ι} {expected tasks : IdSet}

/-- The task of a picked attempt's block is expected, and nobody else has it. -/
theorem task_mem_iff (h : job.Sound state) (hreads : job.Reads state picked config expected tasks) {i : ι}
    {block : Block} (hblock : block ∈ state.made i) : block.task ∈ tasks ↔ i ∈ picked := by
  have htask : block.task = (job.attempt i).task :=
    ((h.makes i).madeBy block hblock).task_eq.trans (h.task_eq i)
  rw [hreads.tasks, htask]
  constructor
  · rintro ⟨j, hj, heq⟩
    rw [job.task_inj ((h.task_eq j).symm.trans heq)] at hj
    exact hj
  · intro hi
    exact ⟨i, hi, h.task_eq i⟩

/-- **Every expected block is listed**, by its attempt. -/
theorem exists_eligible_of_mem_expected (h : job.Sound state)
    (hreads : job.Reads state picked config expected tasks) {raw : UInt64} (hraw : raw ∈ expected) :
    ∃ copy ∈ Reconciler.listed state.memory.bytes? (state.memory.shardsIn config),
      copy.id.raw = raw ∧ copy.isEligible expected tasks = true := by
  obtain ⟨i, hi, hsucceeded⟩ := (hreads.expected raw).mp hraw
  obtain ⟨hsucceeded, hpartition⟩ := (h.filed i).mem_succeededIn_finish.mp hsucceeded
  obtain ⟨block, hblock, rfl, k, hrange, n, entry, hentry, hof⟩ := h.written i raw hsucceeded
  -- The block is in the range that is read.
  have hread : (job.writer k).range = config.range := by
    have hblock : block.id.partition = config.partition.toUInt64 := hpartition
    rw [hrange, rangeOf, hblock, UInt32.toUInt32_toUInt64, ReadConfig.range, hreads.perRange]
  obtain ⟨shard, hshard, hfiles⟩ := exists_shard_of_mem_entries h hreads hread hentry
  have hlisted : entry ∈ indexEntries state.memory.bytes? shard.files.index := by
    rw [hfiles]
    exact hentry
  refine ⟨_, List.mem_flatMap.mpr ⟨shard, hshard, List.mem_map_of_mem hlisted⟩, ?_, ?_⟩
  · rw [hof]
    rfl
  · have hid : (BlockCopy.ofEntry ((state.memory.bytes? shard.files.data).getD []) entry).id = block.id := by
      rw [hof]
      rfl
    have htask : (BlockCopy.ofEntry ((state.memory.bytes? shard.files.data).getD []) entry).task =
        block.task := by
      rw [hof]
      rfl
    rw [BlockCopy.isEligible, hid, htask, decide_eq_true_eq]
    exact ⟨hraw, (task_mem_iff h hreads hblock).mpr hi⟩

/-- **A job delivers each block once.** Whatever it has come to, whatever failed, and whichever of its
attempts are picked: a reader of a partition that finds all roots, and expects what the picked attempts report
and nothing else, opens; it reads to the end without an error; it delivers each expected block once, as its
attempt made it; and it finds that nothing is missing. -/
theorem delivery_exactly_once [DecidableEq ι] [DecidableEq κ] (hreaches : job.Reaches state)
    (hreads : job.Reads state picked config expected tasks) :
    ∃ (opened : Reconciler) (found : List Batch) (final : Reconciler),
      (Reconciler.open config expected tasks).run Memory.handler state.memory =
        (.ok opened, state.memory) ∧
      ((serve (List.replicate (found.length + 1) .read) opened).run Memory.handler state.memory).1 =
        (found.map (fun batch => .ok (some batch)) ++ [.ok none], final) ∧
      (BlockCopy.ids (found.flatMap Batch.copies)).Nodup ∧
      (∀ raw, raw ∈ BlockCopy.ids (found.flatMap Batch.copies) ↔ raw ∈ expected) ∧
      (∀ copy ∈ found.flatMap Batch.copies, ∃ i ∈ picked, ∃ block ∈ state.made i, copy = .ofBlock block) ∧
      final.checkComplete = .ok () := by
  have h := sound_of_reaches hreaches
  obtain ⟨hopen, hsame⟩ := Memory.yields_open state.memory hreads.check expected tasks _ rfl
  -- Where nothing is expected no shard is looked for; the shards are those that are found otherwise.
  generalize hshards : (if expected.isEmpty then [] else state.memory.shardsIn config) = shards at hopen
  have hsub : ∀ shard ∈ shards, shard ∈ state.memory.shardsIn config := by
    intro shard hshard
    rw [← hshards] at hshard
    split at hshard
    · cases hshard
    · exact hshard
  have hlisted : ∀ copy ∈ Reconciler.listed state.memory.bytes? shards,
      copy ∈ Reconciler.listed state.memory.bytes? (state.memory.shardsIn config) := by
    intro copy hcopy
    obtain ⟨shard, hshard, hcopy⟩ := List.mem_flatMap.mp hcopy
    exact List.mem_flatMap.mpr ⟨shard, hsub shard hshard, hcopy⟩
  have hwanted : ∀ copy ∈ deliveries expected tasks (Reconciler.listed state.memory.bytes? shards),
      copy ∈ Reconciler.listed state.memory.bytes? shards ∧ copy.isEligible expected tasks = true := by
    intro copy hcopy
    exact List.mem_filter.mp ((BlockCopy.firsts_sublist _).subset hcopy)
  -- Every listed copy is whole, whichever attempt it is of, so no read fails and the reader is the reference.
  obtain ⟨found, final, s', hrun, -, -, hall⟩ :=
    reconciles_of_opened (Memory.serves_memory state.memory).offers
      (fun shard hshard => (exists_pair_of_mem_shardsIn h (hsub shard hshard)).1)
      (fun shard hshard => holdsEntries_of_mem_shardsIn h (hsub shard hshard))
      (fun copy hcopy => verifies_of_mem_listed h (hlisted copy (hwanted copy hcopy).1)) rfl
  have hdelivered : found.flatMap Batch.copies =
      deliveries expected tasks (Reconciler.listed state.memory.bytes? shards) := by
    rw [hall.delivered_eq, wanted_fresh]
  -- What is expected was acknowledged to a picked attempt, so a copy of it is listed.
  have heligible : ∀ raw ∈ expected, ∃ copy ∈ Reconciler.listed state.memory.bytes? shards,
      copy.id.raw = raw ∧ copy.isEligible expected tasks = true := by
    intro raw hraw
    have hnonempty : ¬ expected.isEmpty = true := by
      rw [IdSet.isEmpty_iff_forall_not_mem]
      intro hempty
      exact hempty raw hraw
    rw [← hshards, if_neg hnonempty]
    exact exists_eligible_of_mem_expected h hreads hraw
  refine ⟨_, found, final, Prod.ext hopen hsame, congrArg Prod.fst hrun, ?_, ?_, ?_, ?_⟩
  · rw [hdelivered]
    exact BlockCopy.nodup_ids_firsts _
  · intro raw
    rw [hdelivered, deliveries, BlockCopy.mem_ids_firsts, BlockCopy.mem_ids]
    constructor
    · rintro ⟨copy, hcopy, rfl⟩
      exact (of_decide_eq_true (List.mem_filter.mp hcopy).2).1
    · intro hraw
      obtain ⟨copy, hcopy, heq, hcounts⟩ := heligible raw hraw
      exact ⟨copy, List.mem_filter.mpr ⟨hcopy, hcounts⟩, heq⟩
  · intro copy hcopy
    rw [hdelivered] at hcopy
    obtain ⟨hcopy, hcounts⟩ := hwanted copy hcopy
    obtain ⟨i, block, hblock, rfl⟩ := exists_block_of_mem_listed h (hlisted copy hcopy)
    exact ⟨i, (task_mem_iff h hreads hblock).mp (of_decide_eq_true hcounts).2, block, hblock, rfl⟩
  · rw [hall.accountsFor.complete]
    intro raw hraw
    obtain ⟨copy, hcopy, heq, hcounts⟩ := heligible raw hraw
    exact ⟨copy, hcopy, heq, Or.inl hcounts⟩

end Listed

/-! ## One block under two roots -/

/-- One attempt, and a writer under each of two roots. -/
def replicated : Job Unit Bool where
  app := "app"
  shuffle := 0
  perRange := 1
  attempt _ := { task := 0 }
  writer k := {
    layout := ⟨.ofText (if k then "b" else "a"), "app", 0⟩
    range := ⟨0, 0⟩
    shard := "w"
    strategy := .everyBatch }
  app_isName := Path.isName_of_ne (by decide) (by decide) (by decide) (by decide)
  started _ := rfl
  created k := ⟨{ base := .ofText (if k then "b" else "a"), app := "app" }, rfl, rfl,
    if_pos (show ShardWriter.isShardName "w" = true by decide +kernel)⟩
  task_inj _ := rfl
  place_inj {k l} h _ _ := by
    revert k l
    decide

/-- The block that the attempt makes. -/
def blockOfA : Block := ⟨1, 1, crc32 [97], ⟨0⟩, 0, [97]⟩

/-- The append to the index fails, behind ten bytes of the entry. -/
def indexFails : Nat → Option (IoError × Nat)
  | 4 => some (⟨.other, ""⟩, 10)
  | _ => none

/-- The block is written under both roots; under the first it takes two pairs. -/
def replicatedEnd : State Unit Bool :=
  (((replicated.start.create () blockOfA
    { task := 0, nextSequence := 1, pending := PartitionedIds.file ∅ 0 0 }).write () false
    [blockOfA] indexFails).write () false [blockOfA] fun _ => none).write () true [blockOfA] fun _ => none

theorem reaches_replicatedEnd : replicated.Reaches replicatedEnd := by
  have hcreate : (replicated.start.attempt ()).createBlock 0 [97] =
      .ok (blockOfA, { task := 0, nextSequence := 1, pending := PartitionedIds.file ∅ 0 0 }) := rfl
  refine (((Relation.ReflTransGen.refl.tail (.create () hcreate)).tail (.write () false _ ?_ ?_)).tail
    (.write () false _ ?_ ?_)).tail (.write () true _ ?_ ?_)
  all_goals decide +kernel

/-- The settings that read it. -/
def replicatedConfig : ReadConfig := { basePaths := [.ofText "a", .ofText "b"], app := "app" }

theorem reads_replicatedEnd : replicated.Reads replicatedEnd Set.univ replicatedConfig
    ((replicatedEnd.attempt ()).finish.succeededIn 0) {0} := by
  have htask : (replicatedEnd.attempt ()).finish.task = 0 := by decide +kernel
  refine ⟨rfl, rfl, rfl, rfl, by decide +kernel, fun raw => ⟨fun h => ⟨(), trivial, h⟩, ?_⟩, fun task => ?_⟩
  · rintro ⟨i, -, h⟩
    exact h
  · simp [htask]

open BlockCopy in
/-- Two copies of the block are there, and one is delivered. -/
theorem delivery_exactly_once_replicated : ∃ opened found final,
    (Reconciler.open replicatedConfig ((replicatedEnd.attempt ()).finish.succeededIn 0) {0}).run
      Memory.handler replicatedEnd.memory = (.ok opened, replicatedEnd.memory) ∧
    ((Reconciler.serve (List.replicate (List.length found + 1) .read) opened).run Memory.handler
      replicatedEnd.memory).1 = (found.map (fun batch => .ok (some batch)) ++ [.ok none], final) ∧
    found.flatMap Batch.copies = [.ofBlock blockOfA] ∧ final.checkComplete = .ok () := by
  obtain ⟨opened, found, final, hopen, hserve, hnodup, hids, hcopies, hcomplete⟩ :=
    delivery_exactly_once reaches_replicatedEnd reads_replicatedEnd
  refine ⟨opened, found, final, hopen, hserve, ?_, hcomplete⟩
  have hexpected : ((replicatedEnd.attempt ()).finish.succeededIn 0).toList = [0] := by decide +kernel
  have hperm : (ids (found.flatMap Batch.copies)).Perm [0] := by
    rw [List.perm_ext_iff_of_nodup hnodup (List.nodup_singleton 0)]
    intro raw
    rw [hids, ← hexpected, Std.ExtTreeSet.mem_toList]
  obtain ⟨copy, hcopy, -⟩ := List.map_eq_singleton_iff.mp (List.perm_singleton.mp hperm)
  rw [hcopy] at hcopies ⊢
  obtain ⟨i, -, block, hblock, rfl⟩ := hcopies copy (List.mem_singleton_self copy)
  rw [List.mem_singleton.mp hblock]

end Job

end BlockShuffle
