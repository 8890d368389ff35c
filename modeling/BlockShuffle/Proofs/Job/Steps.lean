import Mathlib
import BlockShuffle.Proofs.Writing.Attempts

/-!
# A job

Any number of task attempts write through any number of shard writers into one memory, in any order, and any
call to the memory may fail (`Job.Step`). An attempt writes only blocks it made, and a block goes only to
writers of the range that its partition is in; it may go to several of them, to one of them more than once,
or to none. Nothing else is asked: numbers of pairs may wrap around, and roots may lie inside one another.

Writers share the memory and nothing else, and they do not share any of its files (`file_inj`).

Steps are of a whole operation, because what may come between two storage calls of a writer is either a call of
another writer, whose files are not its own, or of the storage failing, and the second is a parameter of the
step: which calls of the operation fail, with what, and after how many bytes. Interleaving single calls would
give the same files, which `Proofs/Writing/Interleaving` says for storage that does not fail.

The job does not end. There is no step for an attempt that dies or a writer that is lost, since one that makes
no further step is such a one, and its files and its account stay as they are at that moment. Reading is no step
either; a reader is run on what a job has come to. What callers have to see to is in the definitions: attempts
have different numbers, writers have different places, and a block is given to a writer of its own range.
-/

set_option autoImplicit false

namespace BlockShuffle

open Storage Program

/-! ## Jobs and their steps -/

/-- Task attempts and shard writers that have done nothing yet. Attempts differ in their ids, and writers in
root, range or name. -/
structure Job (ι κ : Type) where
  app : String
  shuffle : UInt32
  perRange : UInt32
  attempt : ι → TaskAttempt
  writer : κ → ShardWriter
  app_isName : Path.IsName app.toList
  started : ∀ i, TaskAttempt.start (attempt i).task = .ok (attempt i)
  created : ∀ k, ∃ config : WriteConfig, config.app = app ∧ config.shuffle = shuffle ∧
    ShardWriter.create config (writer k).range (writer k).shard = .ok (writer k)
  task_inj : ∀ {i j}, (attempt i).task = (attempt j).task → i = j
  place_inj : ∀ {k l}, (writer k).layout.base.components = (writer l).layout.base.components →
    (writer k).range = (writer l).range → (writer k).shard = (writer l).shard → k = l

namespace Job

variable {ι κ : Type}

/-- What a job has come to. -/
structure State (ι κ : Type) where
  attempt : ι → TaskAttempt
  /-- The blocks that each attempt has made, the last first. -/
  made : ι → List Block
  writer : κ → ShardWriter
  memory : Memory

/-- Nothing is made, and nothing is stored. -/
def start (job : Job ι κ) : State ι κ := ⟨job.attempt, fun _ => [], job.writer, {}⟩

/-- The range that a block belongs in. -/
def rangeOf (job : Job ι κ) (block : Block) : PartitionRange :=
  PartitionRange.forPartition block.id.partition.toUInt32 job.perRange

namespace State

variable {state : State ι κ}

section Attempts

variable [DecidableEq ι]

/-- An attempt makes a block. -/
def create (state : State ι κ) (i : ι) (block : Block) (after : TaskAttempt) : State ι κ :=
  { state with
    attempt := Function.update state.attempt i after
    made := Function.update state.made i (block :: state.made i) }

/-- An attempt goes on with another account. -/
def count (state : State ι κ) (i : ι) (after : TaskAttempt) : State ι κ :=
  { state with attempt := Function.update state.attempt i after }

variable {i : ι} {block : Block} {after : TaskAttempt}

/-- To make a block concerns one attempt, and what it has made. -/
theorem create_cases {p : ι → TaskAttempt → List Block → Prop} (hself : p i after (block :: state.made i))
    (hothers : ∀ j, j ≠ i → p j (state.attempt j) (state.made j)) (j : ι) :
    p j ((state.create i block after).attempt j) ((state.create i block after).made j) := by
  by_cases hj : j = i
  · subst hj
    simpa [create] using hself
  · simpa [create, hj] using hothers j hj

/-- To count concerns one attempt. -/
theorem count_cases {p : ι → TaskAttempt → Prop} (hself : p i after)
    (hothers : ∀ j, j ≠ i → p j (state.attempt j)) (j : ι) : p j ((state.count i after).attempt j) := by
  by_cases hj : j = i
  · subst hj
    simpa [count] using hself
  · simpa [count, hj] using hothers j hj

end Attempts

section Writers

variable [DecidableEq κ]

/-- What a call to a writer leaves behind. -/
def put (state : State ι κ) (k : κ) (writer : ShardWriter) (memory : Memory) : State ι κ :=
  { state with writer := Function.update state.writer k writer, memory }

/-- A call concerns one writer. -/
theorem put_cases {p : κ → ShardWriter → Prop} {k : κ} {writer : ShardWriter} {memory : Memory}
    (hself : p k writer) (hothers : ∀ l, l ≠ k → p l (state.writer l)) (l : κ) :
    p l ((state.put k writer memory).writer l) := by
  by_cases hl : l = k
  · subst hl
    simpa [put] using hself
  · simpa [put, hl] using hothers l hl

/-- A writer goes on to the next pair, while calls fail as they do. -/
def rollOver (state : State ι κ) (k : κ) (failures : Nat → Option (IoError × Nat)) : State ι κ :=
  let ((_, writer), storage) := (state.writer k).rollOver.run Unreliable.handler ⟨state.memory, failures⟩
  state.put k writer storage.memory

end Writers

/-- An attempt writes blocks through a writer, while calls fail as they do. -/
def write [DecidableEq ι] [DecidableEq κ] (state : State ι κ) (i : ι) (k : κ) (blocks : List Block)
    (failures : Nat → Option (IoError × Nat)) : State ι κ :=
  let ((_, attempt, writer), storage) := ((state.attempt i).writeWith (state.writer k) blocks).run
    Unreliable.handler ⟨state.memory, failures⟩
  (state.put k writer storage.memory).count i attempt

end State

variable [DecidableEq ι] [DecidableEq κ]

/-- One step of a job. -/
inductive Step (job : Job ι κ) (state : State ι κ) : State ι κ → Prop
  | create (i : ι) {partition : UInt32} {payload : Bytes} {block : Block} {after : TaskAttempt}
      (created : (state.attempt i).createBlock partition payload = .ok (block, after)) :
      Step job state (state.create i block after)
  | write (i : ι) (k : κ) {blocks : List Block} (failures : Nat → Option (IoError × Nat))
      (own : ∀ block ∈ blocks, block ∈ state.made i)
      (inRange : ∀ block ∈ blocks, (job.writer k).range = job.rangeOf block) :
      Step job state (state.write i k blocks failures)
  | rollOver (k : κ) (failures : Nat → Option (IoError × Nat)) :
      Step job state (state.rollOver k failures)

/-- What a job can come to, in any number of steps. -/
def Reaches (job : Job ι κ) (state : State ι κ) : Prop :=
  Relation.ReflTransGen job.Step job.start state

end Job

/-! ## Files of writers -/

namespace Job

variable {ι κ : Type}

/-- The files of a writer, by the number of the pair. -/
def files (job : Job ι κ) (k : κ) : UInt32 → ShardFiles := (job.writer k).filesOf

theorem layout_eq (job : Job ι κ) (k : κ) : (job.writer k).layout.app = job.app ∧
    (job.writer k).layout.shuffle = job.shuffle ∧
    ShardWriter.isShardName (job.writer k).shard = true := by
  obtain ⟨config, happ, hshuffle, hcreate⟩ := job.created k
  rw [ShardWriter.create] at hcreate
  split at hcreate
  · rename_i hname
    have hwriter := Except.ok.inj hcreate
    rw [← hwriter]
    exact ⟨happ, hshuffle, hname⟩
  · cases hcreate

theorem named (job : Job ι κ) (k : κ) : (job.writer k).Named := by
  obtain ⟨happ, -, hname⟩ := job.layout_eq k
  exact ⟨happ ▸ job.app_isName, hname⟩

theorem pair_eq (job : Job ι κ) (k : κ) : (job.writer k).pair = none := by
  obtain ⟨config, -, -, hcreate⟩ := job.created k
  rw [ShardWriter.create] at hcreate
  split at hcreate
  · have hwriter := Except.ok.inj hcreate
    rw [← hwriter]
  · cases hcreate

/-- **Files of a job with one path are one file of one writer.** -/
theorem file_inj (job : Job ι κ) {k l : κ} {n m : UInt32} {extension extension' : List Char}
    (he : IsExtension extension) (he' : IsExtension extension')
    (h : ((job.writer k).layout.file (job.writer k).range (job.writer k).shard n extension).components =
      ((job.writer l).layout.file (job.writer l).range (job.writer l).shard m extension').components) :
    k = l ∧ n = m ∧ extension = extension' := by
  obtain ⟨happ, -, -⟩ := job.layout_eq k
  obtain ⟨happ', -, -⟩ := job.layout_eq l
  obtain ⟨hbase, hrange, hshard, hnumber, hextension⟩ := Layout.file_inj (job.named k).app
    (happ'.trans happ.symm) (job.named k).shard (job.named l).shard he he' h
  exact ⟨job.place_inj hbase hrange hshard, hnumber, hextension⟩

end Job

end BlockShuffle
