import Mathlib
import BlockShuffle.Proofs.Writing.Numbering

/-!
# The report of an attempt

A report is made from the sets of an account, so it says of every id what the calls said of it, and a block that was
made and never settled is reported as failed. That is asked of the calls behind the one that made the block: the id
may have been settled in front of it, since blocks that are settled need not be the attempt's own. Then it is in both
parts of the report, as it is where one write of the block succeeded and another failed.

A report is asked by partition, and answers with the set that is kept under it. What the calls say is about ids, so
two things are needed to say which ids these are: that an account has each id under the partition it names, which all
calls see to (`Runs.filed`), and that a block is made for the partition that its id names (`Runs.partition_of_making`).
The first is about where an id is put, the second about what is packed into it; an account that put blocks elsewhere
would break the first and not the second, and its report would answer for the wrong partition.

The counts are sums over all partitions. They count an id in each part of the report that it is in, so the two together
may be more than the blocks that were made, and are more than that too where foreign blocks were settled.
-/

set_option autoImplicit false

namespace BlockShuffle

namespace TaskAttempt

variable {first last : TaskAttempt} {events before : List Event} {task : UInt64} {partition : UInt32} {raw : UInt64}

/-! ## Blocks that were left open -/

/-- Behind `before` a block of this id was made for the partition, and after that nothing became of it. -/
def LeftOpenBehind (before events : List Event) (partition : UInt32) (raw : UInt64) : Prop :=
  ∃ making behind, events = before ++ .created making :: behind ∧ making.partition = partition ∧
    making.block.id.raw = raw ∧ ∀ later ∈ behind, ¬ later.Settles raw

/-- A block is made for the partition that its id names. -/
theorem Runs.partition_of_making (hstart : start task = .ok first) (h : Runs first events last) {making : Making}
    (hmaking : making ∈ makingsIn events) : making.block.id.partition = making.partition.toUInt64 := by
  obtain ⟨k, hnumber⟩ := h.exists_isNumber hstart hmaking
  exact hnumber.partition_eq

theorem LeftOpenBehind.partition_eq (hstart : start task = .ok first) (h : Runs first events last)
    (hopen : LeftOpenBehind before events partition raw) : (BlockId.mk raw).partition = partition.toUInt64 := by
  obtain ⟨making, behind, rfl, rfl, rfl, -⟩ := hopen
  exact h.partition_of_making hstart (mem_makingsIn_split before behind making)

/-- **The blocks of a partition that were left open are those made for it.** -/
theorem Runs.leftOpen_iff (hstart : start task = .ok first) (h : Runs first events last) :
    LeftOpen events raw ∧ (BlockId.mk raw).partition = partition.toUInt64 ↔
      ∃ before, LeftOpenBehind before events partition raw := by
  constructor
  · rintro ⟨⟨before, _, behind, rfl, ⟨making, rfl, rfl⟩, hlater⟩, hpartition⟩
    have hmade := h.partition_of_making hstart (mem_makingsIn_split before behind making)
    have hsame := hmade.symm.trans hpartition
    exact ⟨before, making, behind, rfl, UInt32.toUInt64_inj.mp hsame, rfl, hlater⟩
  · rintro ⟨before, hopen⟩
    have hpartition := hopen.partition_eq hstart h
    obtain ⟨making, behind, hsplit, -, hraw, hlater⟩ := hopen
    exact ⟨⟨before, _, behind, hsplit, ⟨making, rfl, hraw⟩, hlater⟩, hpartition⟩

/-- What is acknowledged and left open was acknowledged before it was made. -/
theorem LeftOpenBehind.acknowledged_iff (hopen : LeftOpenBehind before events partition raw) :
    (∃ event ∈ events, event.Acknowledges raw) ↔ ∃ earlier ∈ before, earlier.Acknowledges raw := by
  obtain ⟨making, behind, rfl, -, hraw, hlater⟩ := hopen
  constructor
  · rintro ⟨event, hevent, hacknowledges⟩
    rcases List.mem_append.mp hevent with hearlier | hevent
    · exact ⟨event, hearlier, hacknowledges⟩
    · rcases List.mem_cons.mp hevent with rfl | hevent
      · exact absurd (Or.inl hacknowledges) (Event.Creates.not_settles ⟨making, rfl, hraw⟩)
      · exact absurd (Or.inl hacknowledges) (hlater event hevent)
  · rintro ⟨earlier, hearlier, hacknowledges⟩
    exact ⟨earlier, List.mem_append_left _ hearlier, hacknowledges⟩

/-- Every block that is made is settled or left open. -/
theorem settled_or_leftOpen {making : Making} (hmaking : making ∈ makingsIn events) :
    (∃ event ∈ events, event.Settles making.block.id.raw) ∨
      ∃ before, LeftOpenBehind before events making.partition making.block.id.raw := by
  obtain ⟨before, behind, rfl⟩ := List.append_of_mem (mem_makingsIn.mp hmaking)
  by_cases hsettled : ∃ later ∈ behind, later.Settles making.block.id.raw
  · obtain ⟨later, hlater, hsettles⟩ := hsettled
    exact Or.inl ⟨later, List.mem_append_right _ (List.mem_cons_of_mem _ hlater), hsettles⟩
  · push Not at hsettled
    exact Or.inr ⟨before, making, behind, rfl, rfl, rfl, hsettled⟩

/-! ## What a report says -/

/-- A report says of every id what the events do. -/
structure Accounts (events : List Event) (report : WriteReport) : Prop where
  succeeded : ∀ (partition : UInt32) (raw : UInt64), raw ∈ report.succeededIn partition ↔
    (BlockId.mk raw).partition = partition.toUInt64 ∧ ∃ event ∈ events, event.Acknowledges raw
  failed : ∀ (partition : UInt32) (raw : UInt64), raw ∈ report.failedIn partition ↔
    ((BlockId.mk raw).partition = partition.toUInt64 ∧ ∃ event ∈ events, event.Fails raw) ∨
      ∃ before, LeftOpenBehind before events partition raw
  /-- No block that was made is missing. -/
  covers : ∀ making ∈ makingsIn events,
    making.block.id.raw ∈ report.succeededIn making.partition ∨
      making.block.id.raw ∈ report.failedIn making.partition
  both : ∀ (partition : UInt32) (raw : UInt64),
    (raw ∈ report.succeededIn partition ∧ raw ∈ report.failedIn partition) ↔
      ((BlockId.mk raw).partition = partition.toUInt64 ∧ (∃ event ∈ events, event.Acknowledges raw) ∧
        ∃ event ∈ events, event.Fails raw) ∨
      ∃ before, LeftOpenBehind before events partition raw ∧ ∃ earlier ∈ before, earlier.Acknowledges raw
  succeededCount_eq : report.succeededCount = ∑ partition : UInt32, (report.succeededIn partition).size
  failedCount_eq : report.failedCount = ∑ partition : UInt32, (report.failedIn partition).size

section Parts

variable (hstart : start task = .ok first) (h : Runs first events last) (partition : UInt32) (raw : UInt64)

include hstart h

theorem Runs.mem_succeededIn_iff : raw ∈ last.finish.succeededIn partition ↔
    (BlockId.mk raw).partition = partition.toUInt64 ∧ ∃ event ∈ events, event.Acknowledges raw := by
  have hfiled := filed_start hstart
  obtain ⟨-, rfl⟩ := start_eq_ok_iff.mp hstart
  rw [(h.filed hfiled).mem_succeededIn_finish, h.has_succeeded_iff hfiled, and_comm]
  simp only [PartitionedIds.not_has_empty, false_or]

theorem Runs.mem_failedIn_iff : raw ∈ last.finish.failedIn partition ↔
    ((BlockId.mk raw).partition = partition.toUInt64 ∧ ∃ event ∈ events, event.Fails raw) ∨
      ∃ before, LeftOpenBehind before events partition raw := by
  have hfiled := filed_start hstart
  rw [← h.leftOpen_iff hstart]
  obtain ⟨-, rfl⟩ := start_eq_ok_iff.mp hstart
  rw [(h.filed hfiled).mem_failedIn_finish, h.has_failed_iff hfiled, h.has_pending_iff hfiled, or_and_right]
  simp only [PartitionedIds.not_has_empty, false_and, false_or]
  rw [and_comm]

end Parts

/-- **A report accounts for every block.** -/
theorem report_accounts_for_every_block (hstart : start task = .ok first) (h : Runs first events last) :
    Accounts events last.finish := by
  have hsucceeded := h.mem_succeededIn_iff hstart
  have hfailed := h.mem_failedIn_iff hstart
  refine ⟨hsucceeded, hfailed, ?_, ?_, PartitionedIds.count_eq_sum _, PartitionedIds.count_eq_sum _⟩
  · intro making hmaking
    have hpartition := h.partition_of_making hstart hmaking
    rw [hsucceeded, hfailed]
    rcases settled_or_leftOpen hmaking with ⟨event, hevent, hacknowledges | hfails⟩ | hopen
    · exact Or.inl ⟨hpartition, event, hevent, hacknowledges⟩
    · exact Or.inr (Or.inl ⟨hpartition, event, hevent, hfails⟩)
    · exact Or.inr (Or.inr hopen)
  · intro partition raw
    rw [hsucceeded, hfailed]
    constructor
    · rintro ⟨⟨hpartition, hacknowledged⟩, ⟨-, hfails⟩ | ⟨before, hopen⟩⟩
      · exact Or.inl ⟨hpartition, hacknowledged, hfails⟩
      · exact Or.inr ⟨before, hopen, hopen.acknowledged_iff.mp hacknowledged⟩
    · rintro (⟨hpartition, hacknowledged, hfails⟩ | ⟨before, hopen, hearlier⟩)
      · exact ⟨⟨hpartition, hacknowledged⟩, Or.inl ⟨hpartition, hfails⟩⟩
      · exact ⟨⟨hopen.partition_eq hstart h, hopen.acknowledged_iff.mpr hearlier⟩, Or.inr ⟨before, hopen⟩⟩

/-- The first block, with a length that no writer takes. -/
def damagedOfThree : Block := { blockOfThree with length := 1 }

/-- The block for partition five is acknowledged before it is made and left open after. The one for partition three
is acknowledged although a write of it failed. -/
def outOfOrder : List Event :=
  [.acknowledged [blockOfFive], .created ⟨3, [], blockOfThree⟩,
    .refused 16777216 [] (.blockIdOverflow ⟨.partition, 16777216⟩),
    .wrote [damagedOfThree] (.error (.invalidBlock (.wrongLength ⟨117440515⟩ 1 0))),
    .acknowledged [blockOfThree], .created ⟨5, [1], blockOfFive⟩]

/-- Each partition is told of its own block, in both parts, and of no other. -/
theorem report_accounts_for_every_block_outOfOrder : start 7 = .ok { task := 7 } ∧
    ∃ last, Runs { task := 7 } outOfOrder last ∧ Accounts outOfOrder last.finish ∧
      last.finish.succeeded.toList.map (fun (partition, ids) => (partition, ids.toList)) =
        [(3, [117440515]), (5, [35184489529349])] ∧
      last.finish.failed.toList.map (fun (partition, ids) => (partition, ids.toList)) =
        [(3, [117440515]), (5, [35184489529349])] := by
  have hstart : start 7 = .ok { task := 7 } := rfl
  have hwrote (attempt : TaskAttempt) : Step attempt
      (.wrote [damagedOfThree] (.error (.invalidBlock (.wrongLength ⟨117440515⟩ 1 0))))
      (attempt.fail [damagedOfThree]) := by
    let writer : ShardWriter :=
      { layout := ⟨.ofText "out", "app", 0⟩, range := ⟨0, 9⟩, shard := "shard", strategy := .everyBatch }
    have hrun : (attempt.writeWith writer [damagedOfThree]).run Memory.handler {} =
      ((.error (.invalidBlock (.wrongLength ⟨117440515⟩ 1 0)), attempt.fail [damagedOfThree], writer), {}) := rfl
    exact .write hrun
  have hruns : Runs { task := 7 } outOfOrder _ :=
    .next (.acknowledge _ _) (.next (.create rfl) (.next (.refuse rfl) (.next (hwrote _)
      (.next (.acknowledge _ _) (.next (.create rfl) (.done _))))))
  refine ⟨hstart, _, hruns, report_accounts_for_every_block hstart hruns, ?_, ?_⟩
  · decide +kernel
  · decide +kernel

end TaskAttempt

end BlockShuffle
