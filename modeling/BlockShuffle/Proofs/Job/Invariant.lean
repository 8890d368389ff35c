import Mathlib
import BlockShuffle.Proofs.Job.Steps

/-!
# What holds all through a job

`Sound` is what holds of every state that a job comes to (`sound_of_reaches`): ids never meet, every pair of
every writer is backed by blocks of its range, memory holds nothing but files of writers, and what an attempt
counts as written is in an index of a writer of the block's range.

A step runs one writer, which leaves its own shard sound whatever fails, and everybody else's files as they were
(`Sound.put`). What is in an index stays in it, so what was counted as written stays written.

The invariant has a part for each kind of thing that could go wrong later. That ids never meet is what makes an
id stand for one block; that memory holds nothing but files of writers means a reader finds no pair it has to
pass over for another reason; that pairs are backed means an entry's bytes are there and are a block's. What an
attempt has counted is spoken of in terms of the ids it has filed, under whichever partition
(`PartitionedIds.Has`); that an id is under its own is a part by itself.

Nothing is said of blocks that were not counted. A write that failed may have left entries, and these are backed
like any others. Nothing is said of the end of a job either: the invariant holds at every moment, and a reader
may start at any.
-/

set_option autoImplicit false

namespace BlockShuffle

open Storage Program

namespace Job

variable {ι κ : Type} {job : Job ι κ} {state : State ι κ}

/-- A block that a writer may be given. -/
def Allowed (job : Job ι κ) (state : State ι κ) (k : κ) (block : Block) : Prop :=
  (∃ i, block ∈ state.made i) ∧ (job.writer k).range = job.rangeOf block

/-- Some writer of the block's range has an entry of the block. -/
def IsWritten (job : Job ι κ) (memory : Memory) (block : Block) : Prop :=
  ∃ k, (job.writer k).range = job.rangeOf block ∧ Indexed (job.files k) memory block

structure Sound (job : Job ι κ) (state : State ι κ) : Prop where
  makes : ∀ i, (state.attempt i).Makes (state.made i)
  task_eq : ∀ i, (state.attempt i).task = (job.attempt i).task
  sameShard : ∀ k, ShardWriter.SameShard (job.writer k) (state.writer k)
  sound : ∀ k, (state.writer k).Sound (job.Allowed state k) state.memory state.memory
  listed : ∀ path ∈ state.memory.paths,
    ∃ k n, path = (job.files k n).data ∨ path = (job.files k n).index
  filed : ∀ i, (state.attempt i).Filed
  written : ∀ i raw, (state.attempt i).succeeded.Has raw →
    ∃ block ∈ state.made i, block.id.raw = raw ∧ job.IsWritten state.memory block

theorem sound_start (job : Job ι κ) : job.Sound job.start := by
  have hnothing : ∀ path, (job.start).memory.bytes? path = none := fun _ => rfl
  constructor
  · intro i
    exact (TaskAttempt.makes_start (job.started i)).2.2
  · intro i
    rfl
  · intro k
    exact ⟨rfl, rfl, rfl⟩
  · intro k
    refine ⟨Keeps.refl fun n => ?_, fun pair hpair => ?_⟩
    · rw [hnothing, hnothing]
      exact Backed.nothing _ _
    · rw [start, job.pair_eq k] at hpair
      cases hpair
  · intro path hp
    cases hp
  · intro i
    exact TaskAttempt.filed_start (job.started i)
  · intro i raw hraw
    rw [start, (TaskAttempt.makes_start (job.started i)).2.1] at hraw
    exact absurd hraw PartitionedIds.not_has_empty

/-! ## Writers do not meet -/

/-- What a writer does leaves the files of the others as they are. -/
theorem find?_other {k l : κ} (hne : k ≠ l) {allowed : Block → Prop} {start memory : Memory}
    (h : Keeps (job.files k) allowed start memory) (n : UInt32) :
    memory.find? (job.files l n).data = start.find? (job.files l n).data ∧
      memory.find? (job.files l n).index = start.find? (job.files l n).index := by
  constructor <;> apply h.frame <;> intro m heq
  · exact hne (job.file_inj isExtension_data isExtension_data heq).1.symm
  · exact hne (job.file_inj isExtension_data isExtension_index heq).1.symm
  · exact hne (job.file_inj isExtension_index isExtension_data heq).1.symm
  · exact hne (job.file_inj isExtension_index isExtension_index heq).1.symm

/-- What is in an index stays in it, whoever is writing. -/
theorem indexed_mono {k l : κ} {allowed : Block → Prop} {start memory : Memory}
    (h : Keeps (job.files k) allowed start memory) {block : Block}
    (hindexed : Indexed (job.files l) start block) : Indexed (job.files l) memory block := by
  obtain ⟨n, entry, he, heq⟩ := hindexed
  refine ⟨n, entry, ?_, heq⟩
  by_cases hkl : k = l
  · subst hkl
    exact h.entries n entry he
  · rw [Memory.bytes?, (find?_other hkl h n).2]
    exact he

/-! ## Steps -/

section Writers

variable [DecidableEq κ]

/-- **A writer that leaves its own shard sound leaves the job sound.** -/
theorem Sound.put (h : job.Sound state) {k : κ} {writer : ShardWriter} {memory : Memory}
    (hsame : ShardWriter.SameShard (state.writer k) writer)
    (hsound : writer.Sound (job.Allowed state k) state.memory memory) :
    job.Sound (state.put k writer memory) := by
  have hshard : ShardWriter.SameShard (job.writer k) writer := (h.sameShard k).trans hsame
  have hkeeps : Keeps (job.files k) (job.Allowed state k) state.memory memory := by
    rw [files, ← hshard.filesOf_eq]
    exact hsound.keeps
  refine { h with sameShard := ?_, sound := ?_, listed := ?_, written := ?_ }
  · exact State.put_cases (p := fun l writer => ShardWriter.SameShard (job.writer l) writer) hshard
      fun l _ => h.sameShard l
  · refine State.put_cases (p := fun l writer => writer.Sound (job.Allowed state l) memory memory)
      ⟨Keeps.refl hsound.keeps.backed, hsound.isOpen⟩ fun l hl => ?_
    -- Another writer finds its files as they were.
    have hother := find?_other (Ne.symm hl) hkeeps
    rw [files, ← (h.sameShard l).filesOf_eq] at hother
    refine ⟨Keeps.refl fun n => ?_, fun pair hpair => ?_⟩
    · have hbacked := (h.sound l).keeps.backed n
      rw [Memory.bytes?, Memory.bytes?, ← (hother n).1, ← (hother n).2] at hbacked
      exact hbacked
    · exact ((h.sound l).isOpen pair hpair).congr hother
  · intro path hp
    rcases hkeeps.listed path hp with hold | ⟨n, heq⟩
    · exact h.listed path hold
    · exact ⟨k, n, heq⟩
  · intro i raw hraw
    obtain ⟨block, hblock, heq, l, hrange, hindexed⟩ := h.written i raw hraw
    exact ⟨block, hblock, heq, l, hrange, indexed_mono hkeeps hindexed⟩

theorem Sound.rollOver (h : job.Sound state) (k : κ) (failures : Nat → Option (IoError × Nat)) :
    job.Sound (state.rollOver k failures) := by
  have hrun : (state.writer k).rollOver.Ensures
      ((state.writer k).Sound (job.Allowed state k) state.memory) _ := ShardWriter.ensures_rollOver
  obtain ⟨hsame, hsound, hnone⟩ := hrun ⟨state.memory, failures⟩ (h.sound k)
  exact h.put hsame (.of_sameShard hsame hsound.keeps (ShardWriter.hasOpen_of_pair_eq_none hnone))

end Writers

section Attempts

variable [DecidableEq ι]

/-- Counting blocks that are written leaves the job sound. -/
theorem Sound.count (h : job.Sound state) {i : ι} {after : TaskAttempt}
    (htask : after.task = (state.attempt i).task)
    (hnext : after.nextSequence = (state.attempt i).nextSequence) (hfiled : after.Filed)
    (hwritten : ∀ raw, after.succeeded.Has raw → (state.attempt i).succeeded.Has raw ∨
      ∃ block ∈ state.made i, block.id.raw = raw ∧ job.IsWritten state.memory block) :
    job.Sound (state.count i after) := by
  refine { h with makes := ?_, task_eq := ?_, filed := ?_, written := ?_ }
  · exact State.count_cases (p := fun j attempt => attempt.Makes (state.made j)) ((h.makes i).congr htask hnext)
      fun j _ => h.makes j
  · exact State.count_cases (p := fun j attempt => attempt.task = (job.attempt j).task) (htask.trans (h.task_eq i))
      fun j _ => h.task_eq j
  · exact State.count_cases (p := fun _ attempt => attempt.Filed) hfiled fun j _ => h.filed j
  · refine State.count_cases (p := fun j attempt => ∀ raw, attempt.succeeded.Has raw →
      ∃ block ∈ state.made j, block.id.raw = raw ∧ job.IsWritten state.memory block) ?_ fun j _ => h.written j
    intro raw hraw
    rcases hwritten raw hraw with hold | hnew
    · exact h.written i raw hold
    · exact hnew

theorem Sound.create (h : job.Sound state) {i : ι} {partition : UInt32} {payload : Bytes} {block : Block}
    {after : TaskAttempt} (hcreate : (state.attempt i).createBlock partition payload = .ok (block, after)) :
    job.Sound (state.create i block after) := by
  obtain ⟨-, -, -, hafter⟩ := TaskAttempt.createBlock_eq_ok hcreate
  -- Blocks that were there are still there.
  have hgrow : ∀ {j : ι} {other : Block}, other ∈ state.made j →
      other ∈ (state.create i block after).made j := by
    intro j other
    exact State.create_cases (p := fun j _ made => other ∈ state.made j → other ∈ made)
      (List.mem_cons_of_mem block) (fun _ _ => id) j
  refine { h with makes := ?_, task_eq := ?_, sound := ?_, filed := ?_, written := ?_ }
  · exact State.create_cases (p := fun _ attempt made => attempt.Makes made) ((h.makes i).create hcreate)
      fun j _ => h.makes j
  · refine State.create_cases (p := fun j attempt _ => attempt.task = (job.attempt j).task) ?_ fun j _ => h.task_eq j
    rw [hafter]
    exact h.task_eq i
  · intro k
    refine ⟨Keeps.refl fun n => ?_, (h.sound k).isOpen⟩
    refine ((h.sound k).keeps.backed n).mono ?_
    rintro other ⟨⟨j, ho⟩, hrange⟩
    exact ⟨⟨j, hgrow ho⟩, hrange⟩
  · exact State.create_cases (p := fun _ attempt _ => attempt.Filed) ((h.filed i).create hcreate) fun j _ => h.filed j
  · intro j raw hraw
    have hold : (state.attempt j).succeeded.Has raw := by
      refine State.create_cases (p := fun j attempt _ => attempt.succeeded.Has raw →
        (state.attempt j).succeeded.Has raw) ?_ (fun _ _ => id) j hraw
      rw [hafter]
      exact id
    obtain ⟨other, ho, heq, hwritten⟩ := h.written j raw hold
    exact ⟨other, hgrow ho, heq, hwritten⟩

end Attempts

variable [DecidableEq ι] [DecidableEq κ]

theorem Sound.write (h : job.Sound state) {i : ι} {k : κ} {blocks : List Block}
    (failures : Nat → Option (IoError × Nat)) (hown : ∀ block ∈ blocks, block ∈ state.made i)
    (hrange : ∀ block ∈ blocks, (job.writer k).range = job.rangeOf block) :
    job.Sound (state.write i k blocks failures) := by
  have hapart : Apart (state.writer k).filesOf :=
    ShardWriter.apart_filesOf ((h.sameShard k).named (job.named k)).shard
  have hallowed : ∀ block ∈ blocks, job.Allowed state k block :=
    fun block hblock => ⟨⟨i, hown block hblock⟩, hrange block hblock⟩
  have hrun : ((state.attempt i).writeWith (state.writer k) blocks).Ensures
      ((state.writer k).Sound (job.Allowed state k) state.memory) _ :=
    TaskAttempt.ensures_writeWith hapart hallowed (h.filed i)
  obtain ⟨⟨htask, hnext, hfiled⟩, hsame, hsound, hsucceeded⟩ := hrun ⟨state.memory, failures⟩ (h.sound k)
  apply (h.put hsame hsound).count htask hnext hfiled
  intro raw hraw
  rcases hsucceeded raw hraw with hold | ⟨block, hblock, heq, hindexed⟩
  · exact Or.inl hold
  · refine Or.inr ⟨block, hown block hblock, heq, k, hrange block hblock, ?_⟩
    rw [files, ← (h.sameShard k).filesOf_eq]
    exact hindexed

/-- **A step keeps a job sound**, whatever fails in it. -/
theorem sound_step {after : State ι κ} (h : job.Sound state) (hstep : job.Step state after) :
    job.Sound after := by
  cases hstep with
  | create i hcreate => exact h.create hcreate
  | write i k failures hown hrange => exact h.write failures hown hrange
  | rollOver k failures => exact h.rollOver k failures

/-- **A job is sound all through.** -/
theorem sound_of_reaches (h : job.Reaches state) : job.Sound state := by
  induction h with
  | refl => exact job.sound_start
  | tail _ hstep ih => exact sound_step ih hstep

end Job

end BlockShuffle
