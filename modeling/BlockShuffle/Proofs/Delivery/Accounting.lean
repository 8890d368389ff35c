import Mathlib
import BlockShuffle.Proofs.Delivery.Calls
import BlockShuffle.Storage.Memory

/-!
# What the accounts of a reconciler say

The processed set and the two delivery counters are written block by block, while a batch is still being
settled. If the batch then breaks at a later block, the call fails and the batch is in no answer, but what
was counted stays counted. `processed_iff_handedOut_or_lost` is the account that is true after every
sequence of calls: processed are the blocks handed out *and* the blocks lost, each once. So the plain
account, processed means handed out, holds exactly while nothing was lost, that is while no batch broke
behind a block that it had already counted; and a passed completeness check says of an expected block that
is not superseded that it was handed out, or lost.

The second case is real. `completeness_passes_with_block_never_handedOut` is a partition with two copies
of two blocks, one copy of the second block damaged: the first block is lost with the damaged batch, is
taken for a duplicate in the other copy, and the check passes although nobody ever received it.
-/

set_option autoImplicit false

namespace BlockShuffle

open Storage

namespace Reconciler

variable {σ : Type} {handler : Handler σ}

/-! ## One call -/

namespace Call

variable {state final : Reconciler} {s s' : σ} {answer : Answer} {lost : List BlockSlice}

/-- A call processes what it hands out and what it loses. -/
theorem mem_processed_iff (h : Call handler state s answer lost final s') {id : UInt64} :
    id ∈ final.processed ↔
      id ∈ BlockSlice.ids (handedOut answer ++ lost) ∨ id ∈ state.processed := by
  induction h with
  | stopped _ | unread _ _ | exhausted _ _ => simp [handedOut]
  | broken _ _ _ settled _ => exact settled.mem_processed_iff
  | delivered _ _ settled _ =>
    rw [List.append_nil]
    exact settled.mem_processed_iff
  | skipped _ _ settled _ ih =>
    rw [ih, settled.mem_processed_iff]
    simp [countBatch]

theorem blocksDelivered_eq (h : Call handler state s answer lost final s') :
    final.stats.blocksDelivered =
      state.stats.blocksDelivered + (handedOut answer ++ lost).length := by
  induction h with
  | stopped _ | unread _ _ | exhausted _ _ => rfl
  | broken _ _ _ settled _ => exact settled.blocksDelivered_eq
  | delivered _ _ settled _ =>
    rw [List.append_nil]
    exact settled.blocksDelivered_eq
  | skipped _ _ settled _ ih =>
    rw [ih, settled.blocksDelivered_eq]
    rfl

theorem bytesDelivered_eq (h : Call handler state s answer lost final s') :
    final.stats.bytesDelivered =
      state.stats.bytesDelivered + BlockSlice.bytes (handedOut answer ++ lost) := by
  induction h with
  | stopped _ | unread _ _ | exhausted _ _ => rfl
  | broken _ _ _ settled _ => exact settled.bytesDelivered_eq
  | delivered _ _ settled _ =>
    rw [List.append_nil]
    exact settled.bytesDelivered_eq
  | skipped _ _ settled _ ih =>
    rw [ih, settled.bytesDelivered_eq]
    rfl

/-- What a call hands out or loses was not processed before. -/
theorem disjoint_processed (h : Call handler state s answer lost final s') {id : UInt64}
    (hid : id ∈ BlockSlice.ids (handedOut answer ++ lost)) : id ∉ state.processed := by
  induction h with
  | stopped _ | unread _ _ | exhausted _ _ => simp [handedOut] at hid
  | broken _ _ _ settled _ => exact settled.disjoint_processed hid
  | delivered _ _ settled _ =>
    rw [List.append_nil] at hid
    exact settled.disjoint_processed hid
  | skipped _ _ settled _ ih =>
    intro hp
    exact ih hid (settled.mem_processed_iff.mpr (Or.inr hp))

theorem nodup (h : Call handler state s answer lost final s') :
    (BlockSlice.ids (handedOut answer ++ lost)).Nodup := by
  induction h with
  | stopped _ | unread _ _ | exhausted _ _ => exact List.nodup_nil
  | broken _ _ _ settled _ => exact settled.nodup
  | delivered _ _ settled _ =>
    rw [List.append_nil]
    exact settled.nodup
  | skipped _ _ _ _ ih => exact ih

end Call

/-! ## A session -/

/-- The blocks that a session handed out, in order. -/
def handedOutIn (answers : List Answer) : List BlockSlice := answers.flatMap handedOut

/-- Blocks of one call in front of the blocks of those that follow, each kind behind its own. -/
theorem handedOutIn_cons_perm (answer : Answer) (answers : List Answer) (lost losses : List BlockSlice) :
    (handedOutIn (answer :: answers) ++ (lost ++ losses)).Perm
      ((handedOut answer ++ lost) ++ (handedOutIn answers ++ losses)) := by
  rw [handedOutIn, List.flatMap_cons, List.append_assoc, List.append_assoc]
  exact List.Perm.append_left _ (List.perm_append_comm_assoc _ _ _)

namespace Session

variable {state final : Reconciler} {s s' : σ} {requests : List Request} {answers : List Answer}
  {losses : List BlockSlice}

/-- The accounts of a session: the ids that were processed in it, and the two counters, are those of the
blocks it handed out and of the blocks it lost. -/
theorem accounts (h : Session handler state s requests answers losses final s') :
    (∀ id, id ∈ final.processed ↔
      id ∈ BlockSlice.ids (handedOutIn answers ++ losses) ∨ id ∈ state.processed) ∧
    final.stats.blocksDelivered =
      state.stats.blocksDelivered + (handedOutIn answers ++ losses).length ∧
    final.stats.bytesDelivered =
      state.stats.bytesDelivered + BlockSlice.bytes (handedOutIn answers ++ losses) := by
  induction h with
  | done => exact ⟨fun id => by simp [handedOutIn], rfl, rfl⟩
  | @read state mid final s s' s'' requests answer answers lost losses call _ ih =>
    obtain ⟨hp, hblocks, hbytes⟩ := ih
    have hperm := handedOutIn_cons_perm answer answers lost losses
    refine ⟨fun id => ?_, ?_, ?_⟩
    · rw [hp, call.mem_processed_iff, (BlockSlice.perm_ids hperm).mem_iff,
        BlockSlice.ids_append (handedOut answer ++ lost), List.mem_append]
      tauto
    · rw [hblocks, call.blocksDelivered_eq, hperm.length_eq]
      simp only [List.length_append]
      omega
    · rw [hbytes, call.bytesDelivered_eq, BlockSlice.bytes_eq_of_perm hperm,
        BlockSlice.bytes_append (handedOut answer ++ lost)]
      omega
  | cancel _ ih => exact ih
  | close _ ih =>
    rw [close_frame] at ih
    exact ih

/-- No id is handed out or lost twice, nor one that was processed before the session. -/
theorem nodup (h : Session handler state s requests answers losses final s') :
    (BlockSlice.ids (handedOutIn answers ++ losses)).Nodup ∧
      ∀ id ∈ BlockSlice.ids (handedOutIn answers ++ losses), id ∉ state.processed := by
  induction h with
  | done => exact ⟨List.nodup_nil, fun _ hid => absurd hid (by simp [handedOutIn])⟩
  | @read state mid final s s' s'' requests answer answers lost losses call _ ih =>
    obtain ⟨hnodup, hfresh⟩ := ih
    have hperm := BlockSlice.perm_ids (handedOutIn_cons_perm answer answers lost losses)
    rw [BlockSlice.ids_append (handedOut answer ++ lost)] at hperm
    have hlater : ∀ id ∈ BlockSlice.ids (handedOutIn answers ++ losses),
        id ∉ BlockSlice.ids (handedOut answer ++ lost) ∧ id ∉ state.processed := by
      intro id hid
      have hmid := hfresh id hid
      rw [call.mem_processed_iff] at hmid
      exact ⟨fun h => hmid (Or.inl h), fun h => hmid (Or.inr h)⟩
    refine ⟨?_, fun id hid => ?_⟩
    · rw [hperm.nodup_iff, List.nodup_append]
      refine ⟨call.nodup, hnodup, ?_⟩
      rintro id hid _ hid' rfl
      exact (hlater id hid').1 hid
    · rw [hperm.mem_iff, List.mem_append] at hid
      rcases hid with hid | hid
      · exact call.disjoint_processed hid
      · exact (hlater id hid).2
  | cancel _ ih => exact ih
  | close _ ih =>
    rw [close_frame] at ih
    exact ih

end Session

/-! ## From the start -/

/-- A reconciler over open shards that has read nothing, with the checksum it verifies by. -/
def fresh (shards : List ShardReader) (expected tasks : IdSet) (checksum : Checksum) : Reconciler :=
  { ofReader (PartitionReader.ofShards shards) expected tasks with checksum }

/-- What is opened is a reconciler over open shards that has read nothing. -/
theorem exists_fresh_of_open {config : ReadConfig} {expected tasks : IdSet} {opened : Reconciler}
    {s s' : σ} (h : (Reconciler.open config expected tasks).run handler s = (.ok opened, s')) :
    ∃ shards, ∀ checksum, { opened with checksum } = fresh shards expected tasks checksum := by
  unfold Reconciler.open at h
  cases hc : config.check with
  | error fault => rw [hc] at h; cases h
  | ok _ =>
    rw [hc] at h
    dsimp only at h
    split_ifs at h with hempty
    · cases h
      exact ⟨[], fun _ => rfl⟩
    · unfold PartitionReader.open at h
      rw [hc] at h
      simp only [bind_assoc, Program.run_bind] at h
      rcases hd : (PartitionReader.openDirs config config.partitionDirs).run handler s with
        ⟨shards | shards, s₁⟩
      · rw [hd] at h
        cases h
      · rw [hd] at h
        cases h
        exact ⟨shards, fun _ => rfl⟩

theorem placed_fresh (shards : List ShardReader) (expected tasks : IdSet) (checksum : Checksum) :
    (fresh shards expected tasks checksum).reader.Placed := PartitionReader.placed_ofShards shards

/-- The completeness check passes when every expected block is processed or superseded. -/
theorem checkComplete_eq_ok_iff {state : Reconciler} : state.checkComplete = .ok () ↔
    ∀ id ∈ state.expected, id ∈ state.processed ∨ id ∈ state.superseded := by
  have hmissing : state.missing.isEmpty = true ↔
      ∀ id ∈ state.expected, id ∈ state.processed ∨ id ∈ state.superseded := by
    rw [IdSet.isEmpty_iff_forall_not_mem]
    refine forall_congr' fun id => ?_
    rw [missing, Std.ExtTreeSet.mem_diff_iff, Std.ExtTreeSet.mem_diff_iff]
    tauto
  rw [← hmissing, checkComplete]
  split <;> simp_all

/-- **The account of every session.** For every storage, every expected set and every checksum, after any
requests: processed are the blocks handed out and the blocks lost, each of them once, and the counters
count both. The blocks lost are those that a failing read had counted before the block it failed at
(`Call.broken`). So *processed means handed out* holds exactly when nothing was lost; and when the
completeness check passes, an expected block that is not superseded was handed out exactly when it was not
lost. -/
theorem processed_iff_handedOut_or_lost (handler : Handler σ) (s : σ) (shards : List ShardReader)
    (expected tasks : IdSet) (checksum : Checksum) (requests : List Request) :
    ∃ answers losses final s',
      (serve requests (fresh shards expected tasks checksum)).run handler s = ((answers, final), s') ∧
      Session handler (fresh shards expected tasks checksum) s requests answers losses final s' ∧
      (∀ id, id ∈ final.processed ↔
        id ∈ BlockSlice.ids (handedOutIn answers) ∨ id ∈ BlockSlice.ids losses) ∧
      final.stats.blocksDelivered = (handedOutIn answers).length + losses.length ∧
      final.stats.bytesDelivered =
        BlockSlice.bytes (handedOutIn answers) + BlockSlice.bytes losses ∧
      (BlockSlice.ids (handedOutIn answers) ++ BlockSlice.ids losses).Nodup ∧
      (losses = [] ↔
        (∀ id, id ∈ final.processed ↔ id ∈ BlockSlice.ids (handedOutIn answers)) ∧
        final.stats.blocksDelivered = (handedOutIn answers).length ∧
        final.stats.bytesDelivered = BlockSlice.bytes (handedOutIn answers)) ∧
      (final.checkComplete = .ok () → ∀ id ∈ expected, id ∉ final.superseded →
        (id ∈ BlockSlice.ids (handedOutIn answers) ↔ id ∉ BlockSlice.ids losses)) := by
  rcases hrun : (serve requests (fresh shards expected tasks checksum)).run handler s with
    ⟨⟨answers, final⟩, s'⟩
  obtain ⟨losses, hs⟩ := session_of_serve (placed_fresh shards expected tasks checksum) hrun
  obtain ⟨hp, hblocks, hbytes⟩ := hs.accounts
  have hprocessed : ∀ id, id ∈ final.processed ↔
      id ∈ BlockSlice.ids (handedOutIn answers) ∨ id ∈ BlockSlice.ids losses := by
    intro id
    rw [hp id, BlockSlice.ids_append, List.mem_append]
    simp [fresh, ofReader]
  have hblocks' : final.stats.blocksDelivered = (handedOutIn answers).length + losses.length := by
    rw [hblocks, List.length_append]
    simp [fresh, ofReader]
  have hbytes' : final.stats.bytesDelivered =
      BlockSlice.bytes (handedOutIn answers) + BlockSlice.bytes losses := by
    rw [hbytes, BlockSlice.bytes_append]
    simp [fresh, ofReader]
  have hnodup : (BlockSlice.ids (handedOutIn answers) ++ BlockSlice.ids losses).Nodup := by
    rw [← BlockSlice.ids_append]
    exact hs.nodup.1
  refine ⟨answers, losses, final, s', rfl, hs, hprocessed, hblocks', hbytes', hnodup, ?_, ?_⟩
  · constructor
    · rintro rfl
      exact ⟨fun id => by rw [hprocessed]; simp, by simpa using hblocks', by simpa using hbytes'⟩
    · rintro ⟨-, hcount, -⟩
      rw [hblocks'] at hcount
      exact List.eq_nil_of_length_eq_zero (by omega)
  · intro hcheck id hid hsup
    have hexpected : final.expected = expected := hs.settings_eq.1
    rw [← hexpected] at hid
    have hmem := (hprocessed id).mp ((checkComplete_eq_ok_iff.mp hcheck id hid).resolve_right hsup)
    -- What was lost was not handed out as well, since no id is counted twice.
    constructor
    · intro hin hout
      exact (List.nodup_append.mp hnodup).2.2 id hin id hout rfl
    · exact fun hlost => hmem.resolve_right hlost

/-! ## A block nobody received

Two copies of two blocks of one byte each, and what the index of the first copy says of the second block is
wrong. -/

/-- The second of the two blocks. -/
def secondBlock : BlockId := ⟨0x200000000000⟩

/-- A reader of one copy; its index has this checksum for the second block. -/
def copyOfTwo (data : Path) (crc : UInt32) : ShardReader where
  files := ⟨"w", 0, data, data⟩
  retryPolicy := .fixed 0 0
  reads := #[⟨0, 2, [⟨0, 1, ⟨0⟩, 0, crc32 [97], 1⟩, ⟨1, 1, secondBlock, 0, crc, 1⟩]⟩]
  blockCount := 2

/-- The data files of both copies. -/
def dataOfTwo : Memory :=
  ((Memory.mk []).insert ⟨['a']⟩ ⟨.ofBytes [97, 98], by decide⟩).insert ⟨['b']⟩
    ⟨.ofBytes [97, 98], by decide⟩

/-- Both blocks are in both data files, nothing fails but the checksum of one copy, and after three reads
the completeness check passes: the first block counts as delivered, and no answer holds it. -/
theorem completeness_passes_with_block_never_handedOut :
    let run := (serve [.read, .read, .read] (fresh [copyOfTwo ⟨['a']⟩ 0, copyOfTwo ⟨['b']⟩ (crc32 [98])]
      {0, secondBlock.raw} {0} crc32)).run Memory.handler dataOfTwo
    run.1.1 = [.error (.checksum secondBlock 0 (crc32 [98])),
      .ok (some ⟨[97, 98], [⟨1, 1, secondBlock, 0, crc32 [98], 1⟩]⟩), .ok none] ∧
    run.1.2.checkComplete = .ok () ∧
    run.1.2.superseded.contains 0 = false ∧
    run.1.2.processed.contains 0 = true ∧ 0 ∉ BlockSlice.ids (handedOutIn run.1.1) ∧
    run.1.2.stats.blocksDelivered = 2 ∧ (handedOutIn run.1.1).length = 1 ∧
    run.1.2.stats.bytesDelivered = 2 ∧ BlockSlice.bytes (handedOutIn run.1.1) = 1 := by
  decide +kernel

end Reconciler

end BlockShuffle
