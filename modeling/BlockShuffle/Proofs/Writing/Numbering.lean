import Mathlib
import BlockShuffle.Proofs.Writing.Account

/-!
# How an attempt numbers its blocks

The number of a block is how many were made before it: nothing else that is done with an attempt moves the next
number, and a block that cannot be made takes none (`Step.numbers`). So over a run the blocks are numbered from zero
without a gap, and their ids never meet, neither those of one attempt nor those of two. The numbers end in front of
the reserved one: when they are used up no block can be made any more, and until then it is only the partition and
the payload that decide.

A run is a list of events and not a list of calls, so a call that was refused is in it, with what it answered,
and the statement that it takes no number is about the same run without it (`Runs.without_refused`). Writing and
reporting belong to a run as well, since blocks are made between them. Nothing here asks in which partition an
id is filed: `Numbers` has the parts of an attempt that numbering depends on, and filing changes none of them.

Two attempts are apart because their numbers are, which whoever starts them has to see to; two attempts that
were started with one number do hand out the same ids. A payload that is too long and a partition that is too
wide are refused before a number is taken.
-/

set_option autoImplicit false

namespace BlockShuffle

open Storage Program

theorem BlockId.toNat_reservedSequence : reservedSequence.toNat = 2 ^ 18 - 1 := IdField.toNat_max .sequence

namespace TaskAttempt

variable {attempt first mid last after : TaskAttempt} {task : UInt64} {partition : UInt32} {payload : Bytes}
variable {making : Making} {events : List Event}

/-! ## Making one block -/

/-- A block is the one that an attempt makes of a payload when it has made `number` before. -/
structure Making.IsNumber (making : Making) (task : UInt64) (number : Nat) : Prop where
  madeBy : MadeBy task making.block
  payload_eq : making.block.payload = making.payload
  sequence_eq : making.block.id.sequence.toNat = number
  partition_eq : making.block.id.partition = making.partition.toUInt64
  unreserved : number < BlockId.reservedSequence.toNat

/-- When the numbers are used up, no block can be made. -/
theorem createBlock_of_reserved (h : attempt.nextSequence = BlockId.reservedSequence) :
    attempt.createBlock partition payload = .error (.blockIdOverflow ⟨.sequence, BlockId.reservedSequence⟩) := by
  rw [createBlock, h, if_pos (UInt64.le_refl _)]

/-- **Before that, the partition and the payload decide.** -/
theorem exists_createBlock_iff (htask : attempt.task.toNat < 2 ^ 21)
    (hnumber : attempt.nextSequence < BlockId.reservedSequence) :
    (∃ block after, attempt.createBlock partition payload = .ok (block, after)) ↔
      partition.toNat < 2 ^ 24 ∧ payload.length < UInt32.size := by
  -- The number is in range, being none that is reserved, so only the partition and the length can be at fault.
  constructor
  · rintro ⟨block, after, h⟩
    obtain ⟨-, hpack, hblock, -⟩ := createBlock_eq_ok h
    obtain ⟨-, -, hpartition, -⟩ := BlockId.pack_eq_ok_iff.mp hpack
    rw [UInt32.toNat_toUInt64] at hpartition
    refine ⟨hpartition, ?_⟩
    rw [Block.ofPayload] at hblock
    split at hblock
    · assumption
    · cases hblock
  · rintro ⟨hpartition, hlength⟩
    have hsequence : attempt.nextSequence.toNat < 2 ^ 18 := by
      have := UInt64.lt_iff_toNat_lt.mp hnumber
      rw [BlockId.toNat_reservedSequence] at this
      omega
    have hpartition' : partition.toUInt64.toNat < 2 ^ 24 := by
      rw [UInt32.toNat_toUInt64]
      exact hpartition
    obtain ⟨id, hid⟩ := BlockId.exists_pack_iff.mpr ⟨hsequence, htask, hpartition'⟩
    obtain ⟨block, hblock⟩ : ∃ block, Block.ofPayload id attempt.task payload = .ok block := by
      rw [Block.ofPayload, if_pos hlength]
      exact ⟨_, rfl⟩
    rw [createBlock, if_neg (UInt64.not_le.mpr hnumber), hid]
    refine ⟨block, { attempt with
      nextSequence := attempt.nextSequence + 1
      pending := attempt.pending.file partition id.raw }, ?_⟩
    simp only [bind_eq_ok_iff]
    exact ⟨id, rfl, block, by rw [hblock]; rfl, rfl⟩

/-- What a call does to the numbers. -/
structure Numbers (attempt : TaskAttempt) (event : Event) (after : TaskAttempt) : Prop where
  task_eq : after.task = attempt.task
  next_eq : (∀ making, event ≠ .created making) → after.nextSequence = attempt.nextSequence
  created : ∀ making, event = .created making → making.IsNumber attempt.task attempt.nextSequence.toNat ∧
    after.nextSequence.toNat = attempt.nextSequence.toNat + 1

theorem Numbers.of_frame {event : Event} (htask : after.task = attempt.task)
    (hnext : after.nextSequence = attempt.nextSequence) (hmade : ∀ making, event ≠ .created making) :
    Numbers attempt event after :=
  ⟨htask, fun _ => hnext, fun making heq => absurd heq (hmade making)⟩

/-- **A block takes the next number, and nothing else does.** -/
theorem Step.numbers {event : Event} (h : Step attempt event after) : Numbers attempt event after := by
  cases h with
  | @create _ making made =>
    obtain ⟨hnumber, hpack, hblock, rfl⟩ := createBlock_eq_ok made
    obtain ⟨hmade, -, hpayload⟩ := madeBy_ofPayload hblock (BlockId.task_of_pack hpack)
    have hlt := UInt64.lt_iff_toNat_lt.mp hnumber
    refine ⟨rfl, fun hne => absurd rfl (hne making), ?_⟩
    rintro _ ⟨⟩
    refine ⟨⟨hmade, hpayload, ?_, BlockId.partition_of_pack hpack, hlt⟩, ?_⟩
    · rw [BlockId.sequence_of_pack hpack]
    · rw [BlockId.toNat_reservedSequence] at hlt
      rw [UInt64.toNat_add, UInt64.toNat_one, Nat.mod_eq_of_lt (by omega)]
  | refuse refused => exact .of_frame rfl rfl (by simp)
  | acknowledge blocks =>
    obtain ⟨htask, hnext, -⟩ := attempt.acknowledge_frame blocks
    exact .of_frame htask hnext (by simp)
  | fail blocks =>
    obtain ⟨htask, hnext, -⟩ := attempt.fail_frame blocks
    exact .of_frame htask hnext (by simp)
  | @write _ _ _ _ _ _ _ blocks outcome wrote =>
    rw [after_writeWith wrote]
    cases outcome with
    | ok =>
      obtain ⟨htask, hnext, -⟩ := attempt.acknowledge_frame blocks
      exact .of_frame htask hnext (by simp)
    | error error =>
      obtain ⟨htask, hnext, -⟩ := attempt.fail_frame blocks
      exact .of_frame htask hnext (by simp)

/-! ## Making blocks in a run -/

/-- The blocks that were made, the first of them first. -/
def makingsIn (events : List Event) : List Making :=
  events.filterMap fun
    | .created making => some making
    | _ => none

theorem makingsIn_cons_of_ne {event : Event} (h : ∀ making, event ≠ .created making) :
    makingsIn (event :: events) = makingsIn events := by
  cases event with
  | created making => exact absurd rfl (h making)
  | _ => rfl

theorem mem_makingsIn : making ∈ makingsIn events ↔ .created making ∈ events := by
  rw [makingsIn, List.mem_filterMap]
  constructor
  · rintro ⟨event, hevent, hmaking⟩
    cases event with
    | created other =>
      cases hmaking
      exact hevent
    | _ => cases hmaking
  · intro h
    exact ⟨_, h, rfl⟩

theorem mem_makingsIn_split (before behind : List Event) (making : Making) :
    making ∈ makingsIn (before ++ .created making :: behind) :=
  mem_makingsIn.mpr (List.mem_append_right _ (List.mem_cons_self ..))

/-- **Blocks are numbered on from where the attempt stood**, in the order they were made. -/
theorem Runs.numbered (h : Runs first events last) : last.task = first.task ∧
    last.nextSequence.toNat = first.nextSequence.toNat + (makingsIn events).length ∧
    ∀ (k : Nat) (making : Making), (makingsIn events)[k]? = some making →
      making.IsNumber first.task (first.nextSequence.toNat + k) := by
  induction h with
  | done attempt => exact ⟨rfl, rfl, by simp [makingsIn]⟩
  | @next attempt mid last event events step rest ih =>
    obtain ⟨htask, hnext, hmakings⟩ := ih
    have hstep := step.numbers
    by_cases hcreated : ∃ making, event = .created making
    · obtain ⟨making, rfl⟩ := hcreated
      obtain ⟨hmaking, hone⟩ := hstep.created making rfl
      have hcons : makingsIn (.created making :: events) = making :: makingsIn events := rfl
      refine ⟨htask.trans hstep.task_eq, ?_, fun k found hk => ?_⟩
      · rw [hnext, hone, hcons, List.length_cons]
        omega
      · rw [hcons] at hk
        cases k with
        | zero =>
          cases hk
          exact hmaking
        | succ k =>
          have hlater := hmakings k found hk
          rw [hstep.task_eq, hone] at hlater
          rw [← Nat.add_assoc, Nat.add_right_comm]
          exact hlater
    · push Not at hcreated
      rw [makingsIn_cons_of_ne hcreated, ← hstep.next_eq hcreated, ← hstep.task_eq]
      exact ⟨htask, hnext, hmakings⟩

/-! ## A whole attempt -/

namespace Event

/-- No block could be made. -/
def isRefused : Event → Bool
  | .refused _ _ _ => true
  | _ => false

end Event

/-- A call that makes no block might as well not have been made. -/
theorem Runs.without_refused (h : Runs first events last) :
    Runs first (events.filter fun event => !event.isRefused) last := by
  induction h with
  | done attempt => exact .done attempt
  | next step rest ih =>
    cases step with
    | create made => exact .next (.create made) ih
    | refuse refused => exact ih
    | acknowledge blocks => exact .next (.acknowledge _ blocks) ih
    | fail blocks => exact .next (.fail _ blocks) ih
    | write wrote => exact .next (.write wrote) ih

theorem start_eq_ok_iff : start task = .ok first ↔ task.toNat < 2 ^ 21 ∧ first = { task } := by
  have hmax := IdField.toNat_max .taskAttempt
  rw [IdField.bits] at hmax
  rw [start]
  split
  · rename_i h
    rw [UInt64.le_iff_toNat_le, hmax] at h
    rw [Except.ok.injEq]
    exact ⟨fun heq => ⟨by omega, heq.symm⟩, fun heq => heq.2.symm⟩
  · rename_i h
    rw [UInt64.le_iff_toNat_le, hmax] at h
    exact ⟨fun heq => (by cases heq), fun heq => absurd heq.1 (by omega)⟩

/-- What a run makes of the numbers, from the start of an attempt on. -/
structure NeverReuses (task : UInt64) (first : TaskAttempt) (events : List Event) (last : TaskAttempt) : Prop where
  /-- Blocks are numbered from zero without a gap, and say what they were made of. -/
  numbered : ∀ (k : Nat) (making : Making), (makingsIn events)[k]? = some making → making.IsNumber task k
  distinct : ((makingsIn events).map fun making => making.block.id).Nodup
  /-- Ids of different attempts differ. -/
  apart : ∀ {task' : UInt64} {first' last' : TaskAttempt} {events' : List Event}, task' ≠ task →
    start task' = .ok first' → Runs first' events' last' →
    ∀ making ∈ makingsIn events, ∀ other ∈ makingsIn events', making.block.id ≠ other.block.id
  /-- The reserved number is not handed out. -/
  possible : ∀ making ∈ makingsIn events, ∀ task' partition,
    BlockId.impossible task' partition ≠ .ok making.block.id
  /-- A block that cannot be made leaves no trace. -/
  traceless : Runs first (events.filter fun event => !event.isRefused) last
  bounded : (makingsIn events).length ≤ BlockId.reservedSequence.toNat
  /-- As long as there are numbers, the partition and the payload decide whether a block can be made. -/
  goesOn : (makingsIn events).length < BlockId.reservedSequence.toNat → ∀ partition payload,
    (∃ block after, last.createBlock partition payload = .ok (block, after)) ↔
      partition.toNat < 2 ^ 24 ∧ payload.length < UInt32.size
  /-- When they are used up, none can. -/
  exhausted : (makingsIn events).length = BlockId.reservedSequence.toNat → ∀ partition payload,
    last.createBlock partition payload = .error (.blockIdOverflow ⟨.sequence, BlockId.reservedSequence⟩)

/-- From the start of an attempt, the k-th block has the number k. -/
theorem Runs.isNumber (hstart : start task = .ok first) (h : Runs first events last) {k : Nat}
    (hk : (makingsIn events)[k]? = some making) : making.IsNumber task k := by
  obtain ⟨-, rfl⟩ := start_eq_ok_iff.mp hstart
  have hnumber := h.numbered.2.2 k making hk
  rw [UInt64.toNat_zero, Nat.zero_add] at hnumber
  exact hnumber

theorem Runs.exists_isNumber (hstart : start task = .ok first) (h : Runs first events last)
    (hmaking : making ∈ makingsIn events) : ∃ k, making.IsNumber task k := by
  obtain ⟨k, hk⟩ := List.mem_iff_getElem?.mp hmaking
  exact ⟨k, h.isNumber hstart hk⟩

/-- **No id is handed out twice, and none that is reserved.** -/
theorem ids_never_reused (hstart : start task = .ok first) (h : Runs first events last) :
    NeverReuses task first events last := by
  obtain ⟨htask, hfirst⟩ := start_eq_ok_iff.mp hstart
  obtain ⟨hlast, hnext, -⟩ := h.numbered
  rw [hfirst] at hlast
  rw [hfirst, UInt64.toNat_zero, Nat.zero_add] at hnext
  -- The k-th block has number k, and the number can be read off its id again.
  constructor
  · intro k making hk
    exact h.isNumber hstart hk
  · rw [List.Nodup, List.pairwise_iff_getElem]
    intro i j hi hj hij heq
    rw [List.length_map] at hi hj
    have hfirst := h.isNumber hstart (List.getElem?_eq_getElem hi)
    have hsecond := h.isNumber hstart (List.getElem?_eq_getElem hj)
    rw [List.getElem_map, List.getElem_map] at heq
    rw [← hfirst.sequence_eq, heq, hsecond.sequence_eq] at hij
    exact absurd hij (Nat.lt_irrefl j)
  · intro task' first' last' events' hne hstart' h' making hmaking other hother heq
    obtain ⟨k, hnumber⟩ := h.exists_isNumber hstart hmaking
    obtain ⟨k', hnumber'⟩ := h'.exists_isNumber hstart' hother
    apply hne
    rw [← hnumber'.madeBy.task_id, ← heq, hnumber.madeBy.task_id]
  · intro making hmaking task' partition hpack
    obtain ⟨k, hnumber⟩ := h.exists_isNumber hstart hmaking
    have hsequence := hnumber.sequence_eq
    rw [BlockId.sequence_of_pack hpack] at hsequence
    exact absurd hnumber.unreserved (by omega)
  · exact h.without_refused
  · by_contra hlength
    have hreserved := h.isNumber hstart (List.getElem?_eq_getElem (Nat.not_le.mp hlength))
    exact absurd hreserved.unreserved (Nat.lt_irrefl _)
  · intro hlength partition payload
    apply exists_createBlock_iff
    · rw [hlast]
      exact htask
    · rw [UInt64.lt_iff_toNat_lt, hnext]
      exact hlength
  · intro hlength partition payload
    apply createBlock_of_reserved
    rw [← UInt64.toNat_inj, hnext, hlength]

/-- A block of attempt seven, for partition three. -/
def blockOfThree : Block := ⟨0, 0, 0, ⟨117440515⟩, 7, []⟩

/-- The next one, for partition five. -/
def blockOfFive : Block := ⟨1, 1, 2768625435, ⟨35184489529349⟩, 7, [1]⟩

/-- Between the two, one is asked for whose partition is too wide. -/
def aroundRefusal : List Event :=
  [.created ⟨3, [], blockOfThree⟩, .refused 16777216 [1] (.blockIdOverflow ⟨.partition, 16777216⟩),
    .failed [blockOfThree], .created ⟨5, [1], blockOfFive⟩]

theorem ids_never_reused_aroundRefusal : start 7 = .ok { task := 7 } ∧
    ∃ last, Runs { task := 7 } aroundRefusal last ∧ NeverReuses 7 { task := 7 } aroundRefusal last := by
  have hstart : start 7 = .ok { task := 7 } := rfl
  have hruns : ∃ last, Runs { task := 7 } aroundRefusal last :=
    ⟨_, .next (.create rfl) (.next (.refuse rfl) (.next (.fail _ _) (.next (.create rfl) (.done _))))⟩
  obtain ⟨last, h⟩ := hruns
  exact ⟨hstart, last, h, ids_never_reused hstart h⟩

end TaskAttempt

end BlockShuffle
