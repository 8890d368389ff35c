import Mathlib
import BlockShuffle.TaskAttempt
import BlockShuffle.Proofs.PartitionedIds
import BlockShuffle.Proofs.Writing.Shard

/-!
# The blocks of an attempt

An attempt numbers its blocks, so a block is known by its number: `MadeBy` is what every block says of
itself, and `Makes` that the blocks an attempt has made have numbers below its next one, all different. Ids
of different attempts differ in the attempt and ids of one attempt in the number, so ids never meet.

An account is kept by partition, and blocks get into it under the partition that was asked for and under the one
that their id names. `Filed` says that these agree: every id of the account is under the partition it names. It
holds of a new attempt and no call breaks it, whatever blocks the call is given, since it is only where a block is
made that the two could differ, and there the id is packed from the partition. All that is said of an account from
here on is said of the ids in it (`Has`), without their partitions, and `Filed` is what takes it back to the sets
that a report hands out (`Filed.mem_succeededIn_finish`, `Filed.mem_failedIn_finish`).

What an attempt counts as written is in an index somewhere (`ensures_writeWith`). A report can err the other
way: a block may count as failed and be there. Which writer has it is not said here, because the account does not
know; the job that put attempts and writers together does.
-/

set_option autoImplicit false

namespace BlockShuffle

open Storage Program

/-- A block as an attempt makes it: its id names the attempt, and it declares what it carries. -/
structure MadeBy (task : UInt64) (block : Block) : Prop where
  task_eq : block.task = task
  task_id : block.id.task = task
  fits : Fits block
  uncompressed : block.uncompressedLength = block.length
  crc_eq : block.crc = crc32 block.payload

namespace TaskAttempt

variable {attempt after : TaskAttempt} {partition : UInt32} {payload : Bytes} {block : Block}

/-! ## Making blocks -/

/-- A block that is made takes the next number, and the attempt goes on with the one behind it. -/
theorem createBlock_eq_ok (h : attempt.createBlock partition payload = .ok (block, after)) :
    attempt.nextSequence < BlockId.reservedSequence ∧
      BlockId.pack attempt.nextSequence attempt.task partition.toUInt64 = .ok block.id ∧
      Block.ofPayload block.id attempt.task payload = .ok block ∧
      after = { attempt with
        nextSequence := attempt.nextSequence + 1
        pending := attempt.pending.file partition block.id.raw } := by
  rw [createBlock] at h
  split at h
  · cases h
  · rename_i hnumber
    cases hid : BlockId.pack attempt.nextSequence attempt.task partition.toUInt64 with
    | error fault =>
      rw [hid] at h
      cases h
    | ok id =>
      cases hblock : Block.ofPayload id attempt.task payload with
      | error fault =>
        simp only [hid, bind_eq_ok_iff] at h
        obtain ⟨_, ⟨⟩, _, hmade, -⟩ := h
        rw [hblock] at hmade
        cases hmade
      | ok made =>
        simp only [hid, bind_eq_ok_iff] at h
        obtain ⟨_, ⟨⟩, _, hmade, hpair⟩ := h
        rw [hblock] at hmade
        cases hmade
        cases hpair
        have hsame : block.id = id := by
          rw [Block.ofPayload] at hblock
          split at hblock
          · cases hblock
            rfl
          · cases hblock
        rw [hsame]
        exact ⟨UInt64.not_le.mp hnumber, rfl, hblock, rfl⟩

theorem madeBy_ofPayload {id : BlockId} {task : UInt64} (h : Block.ofPayload id task payload = .ok block)
    (hid : id.task = task) : MadeBy task block ∧ block.id = id ∧ block.payload = payload := by
  rw [Block.ofPayload] at h
  split at h
  · rename_i hlength
    cases h
    exact ⟨⟨rfl, hid, UInt32.toNat_ofNat_of_lt hlength, rfl, rfl⟩, rfl, rfl⟩
  · cases h

/-- The blocks that an attempt has made so far. -/
structure Makes (attempt : TaskAttempt) (made : List Block) : Prop where
  madeBy : ∀ block ∈ made, MadeBy attempt.task block
  numbered : ∀ block ∈ made, block.id.sequence < attempt.nextSequence
  nodup : (made.map Block.id).Nodup

theorem makes_start {task : UInt64} (h : TaskAttempt.start task = .ok attempt) :
    attempt.task = task ∧ attempt.succeeded = ∅ ∧ attempt.Makes [] := by
  rw [TaskAttempt.start] at h
  split at h
  · cases h
    exact ⟨rfl, rfl, by simp, by simp, List.nodup_nil⟩
  · cases h

/-- **A block that is made is another than those made before.** -/
theorem Makes.create {made : List Block} (hm : attempt.Makes made)
    (h : attempt.createBlock partition payload = .ok (block, after)) : after.Makes (block :: made) := by
  obtain ⟨hnumber, hpack, hblock, rfl⟩ := createBlock_eq_ok h
  obtain ⟨hmade, -, -⟩ := madeBy_ofPayload hblock (BlockId.task_of_pack hpack)
  have hsequence := BlockId.sequence_of_pack hpack
  -- The reserved number is far from where numbers wrap around.
  have hnext : attempt.nextSequence < attempt.nextSequence + 1 := by
    rw [UInt64.lt_iff_toNat_lt] at hnumber ⊢
    rw [BlockId.reservedSequence, IdField.toNat_max, IdField.bits] at hnumber
    rw [UInt64.toNat_add, UInt64.toNat_one, Nat.mod_eq_of_lt (by omega)]
    exact Nat.lt_succ_self _
  refine ⟨?_, ?_, ?_⟩
  · intro other ho
    rcases List.mem_cons.mp ho with rfl | ho
    · exact hmade
    · exact hm.madeBy other ho
  · intro other ho
    rcases List.mem_cons.mp ho with rfl | ho
    · rw [hsequence]
      exact hnext
    · exact UInt64.lt_trans (hm.numbered other ho) hnext
  · rw [List.map_cons, List.nodup_cons]
    refine ⟨?_, hm.nodup⟩
    rw [List.mem_map]
    rintro ⟨other, ho, heq⟩
    have hlt := hm.numbered other ho
    rw [heq, hsequence] at hlt
    exact UInt64.lt_irrefl _ hlt

theorem Makes.congr {made : List Block} (hm : attempt.Makes made) (htask : after.task = attempt.task)
    (hnext : after.nextSequence = attempt.nextSequence) : after.Makes made :=
  ⟨htask ▸ hm.madeBy, hnext ▸ hm.numbered, hm.nodup⟩

/-! ## Blocks and their partitions -/

/-- Every id of an account is under the partition it names. -/
structure Filed (attempt : TaskAttempt) : Prop where
  pending : attempt.pending.IsFiled
  succeeded : attempt.succeeded.IsFiled
  failed : attempt.failed.IsFiled

theorem filed_start {task : UInt64} (h : TaskAttempt.start task = .ok attempt) : attempt.Filed := by
  rw [TaskAttempt.start] at h
  split at h
  · cases h
    exact ⟨PartitionedIds.isFiled_empty, PartitionedIds.isFiled_empty, PartitionedIds.isFiled_empty⟩
  · cases h

/-- **A block is pending under the partition that its id names**, because that is the one it was made for. -/
theorem Filed.create (hf : attempt.Filed) (h : attempt.createBlock partition payload = .ok (block, after)) :
    after.Filed := by
  obtain ⟨-, hpack, -, rfl⟩ := createBlock_eq_ok h
  refine { hf with pending := hf.pending.file ?_ }
  exact BlockId.toUInt32_partition_eq_iff.mpr (BlockId.partition_of_pack hpack)

theorem Filed.acknowledgeOne (hf : attempt.Filed) : (attempt.acknowledgeOne block).Filed :=
  ⟨hf.pending.remove, hf.succeeded.file rfl, hf.failed⟩

theorem Filed.failOne (hf : attempt.Filed) : (attempt.failOne block).Filed :=
  ⟨hf.pending.remove, hf.succeeded, hf.failed.file rfl⟩

theorem Filed.acknowledge {blocks : List Block} (hf : attempt.Filed) : (attempt.acknowledge blocks).Filed :=
  List.foldlRecOn blocks TaskAttempt.acknowledgeOne hf fun _ hf _ _ => hf.acknowledgeOne

theorem Filed.fail {blocks : List Block} (hf : attempt.Filed) : (attempt.fail blocks).Filed :=
  List.foldlRecOn blocks TaskAttempt.failOne hf fun _ hf _ _ => hf.failOne

/-! ## Counting blocks -/

theorem acknowledge_frame (attempt : TaskAttempt) (blocks : List Block) :
    (attempt.acknowledge blocks).task = attempt.task ∧
      (attempt.acknowledge blocks).nextSequence = attempt.nextSequence ∧
      (attempt.acknowledge blocks).failed = attempt.failed := by
  induction blocks generalizing attempt with
  | nil => exact ⟨rfl, rfl, rfl⟩
  | cons block blocks ih => exact ih (attempt.acknowledgeOne block)

section Counting

variable {raw : UInt64} {sets : TaskAttempt → PartitionedIds} {count : TaskAttempt → Block → TaskAttempt}

/-- Blocks that are counted one by one are among those that count. -/
theorem has_foldl_file (h : ∀ attempt block,
      sets (count attempt block) = (sets attempt).file block.id.partition.toUInt32 block.id.raw)
    (attempt : TaskAttempt) (blocks : List Block) :
    (sets (blocks.foldl count attempt)).Has raw ↔ (sets attempt).Has raw ∨ ∃ block ∈ blocks, block.id.raw = raw := by
  induction blocks generalizing attempt with
  | nil => simp
  | cons block blocks ih =>
    rw [List.foldl_cons, ih, h, PartitionedIds.has_file_iff]
    simp only [List.mem_cons, exists_eq_or_imp]
    tauto

/-- Blocks that are taken away one by one are gone, if they were under the partitions that they name. -/
theorem has_foldl_remove (h : ∀ attempt block,
      sets (count attempt block) = (sets attempt).remove block.id.partition.toUInt32 block.id.raw)
    {attempt : TaskAttempt} (hf : (sets attempt).IsFiled) (blocks : List Block) :
    (sets (blocks.foldl count attempt)).Has raw ↔ (sets attempt).Has raw ∧ ¬ ∃ block ∈ blocks, block.id.raw = raw := by
  induction blocks generalizing attempt with
  | nil => simp
  | cons block blocks ih =>
    rw [List.foldl_cons, ih (h attempt block ▸ hf.remove), h, hf.has_remove_iff rfl]
    simp only [List.mem_cons, exists_eq_or_imp]
    rw [not_or, and_assoc, ne_comm]

end Counting

theorem has_succeeded_acknowledge {raw : UInt64} (attempt : TaskAttempt) (blocks : List Block) :
    (attempt.acknowledge blocks).succeeded.Has raw ↔
      attempt.succeeded.Has raw ∨ ∃ block ∈ blocks, block.id.raw = raw :=
  has_foldl_file (fun _ _ => rfl) attempt blocks

theorem fail_frame (attempt : TaskAttempt) (blocks : List Block) :
    (attempt.fail blocks).task = attempt.task ∧
      (attempt.fail blocks).nextSequence = attempt.nextSequence ∧
      (attempt.fail blocks).succeeded = attempt.succeeded := by
  induction blocks generalizing attempt with
  | nil => exact ⟨rfl, rfl, rfl⟩
  | cons block blocks ih => exact ih (attempt.failOne block)

/-! ## Writing blocks -/

/-- **What counts as written is in an index.** -/
theorem ensures_writeWith {writer : ShardWriter} (hapart : Apart writer.filesOf) {blocks : List Block}
    {allowed : Block → Prop} {start : Memory} (hallowed : ∀ block ∈ blocks, allowed block) (hf : attempt.Filed) :
    (attempt.writeWith writer blocks).Ensures (writer.Sound allowed start) fun result memory =>
      (result.2.1.task = attempt.task ∧ result.2.1.nextSequence = attempt.nextSequence ∧ result.2.1.Filed) ∧
      ShardWriter.SameShard writer result.2.2 ∧ result.2.2.Sound allowed start memory ∧
      ∀ raw, result.2.1.succeeded.Has raw → attempt.succeeded.Has raw ∨
        ∃ block ∈ blocks, block.id.raw = raw ∧ Indexed writer.filesOf memory block := by
  rw [writeWith]
  refine ((ShardWriter.ensures_write_leaves hapart (ShardWriter.withstands_keeps hapart hallowed)).mono
    (fun _ h => ⟨h.keeps, h.isOpen⟩) fun _ _ h => h).bind ?_
  rintro ⟨error | ⟨⟩, written⟩
  · apply ensures_done
    rintro memory ⟨hsame, ⟨hkeeps, hopen⟩, -⟩
    obtain ⟨htask, hnext, hsucceeded⟩ := attempt.fail_frame blocks
    refine ⟨⟨htask, hnext, hf.fail⟩, hsame, .of_sameShard hsame hkeeps hopen, fun raw hraw => ?_⟩
    rw [hsucceeded] at hraw
    exact Or.inl hraw
  · apply ensures_done
    rintro memory ⟨hsame, ⟨hkeeps, hopen⟩, hstored⟩
    obtain ⟨htask, hnext, -⟩ := attempt.acknowledge_frame blocks
    refine ⟨⟨htask, hnext, hf.acknowledge⟩, hsame, .of_sameShard hsame hkeeps hopen, fun raw hraw => ?_⟩
    rcases (attempt.has_succeeded_acknowledge blocks).mp hraw with hold | ⟨block, hblock, heq⟩
    · exact Or.inl hold
    · exact Or.inr ⟨block, hblock, heq, (hstored rfl block hblock).indexed⟩

/-! ## Reporting blocks -/

/-- A partition is told of the acknowledged blocks that name it. -/
theorem Filed.mem_succeededIn_finish {raw : UInt64} (hf : attempt.Filed) :
    raw ∈ attempt.finish.succeededIn partition ↔
      attempt.succeeded.Has raw ∧ (BlockId.mk raw).partition = partition.toUInt64 :=
  hf.succeeded.mem_under_iff

/-- What is pending at the end is reported as failed. -/
theorem Filed.mem_failedIn_finish {raw : UInt64} (hf : attempt.Filed) :
    raw ∈ attempt.finish.failedIn partition ↔
      (attempt.failed.Has raw ∨ attempt.pending.Has raw) ∧ (BlockId.mk raw).partition = partition.toUInt64 := by
  rw [← PartitionedIds.has_merge_iff]
  exact (hf.failed.merge hf.pending).mem_under_iff

end TaskAttempt

end BlockShuffle
