import Mathlib
import BlockShuffle.Proofs.Writing.Fleet
import BlockShuffle.Proofs.Writing.Twins

/-!
# How batches are pushed

In memory nothing is held back, so a push does nothing and it makes no difference which one follows a batch: handlers
that push in another way give the same answers and leave the same memory (`Fleet.run_pushing`).

Handlers are compared in a fleet and not one at a time, since the question is asked where several of them write
by turns: all act in the same order, each is given the same steps, and the two fleets differ in their strategies
alone. The relation between them is therefore a function, `Fleet.pushing`, and each lemma is an equation that
moves it past one operation: appending entries, writing a batch, opening a pair, a step of one handler, a step
of the fleet, a run.

Nothing like it holds for a disk, where a batch that was not pushed stays in the buffer of its handle and is
seen by nobody else until it is. There the strategies agree in what they answer and in what is left when the
handles were let go, which is the subject of `Proofs/Writing/Backends`.
-/

set_option autoImplicit false

namespace BlockShuffle

open Storage Program

section Pushing

variable {strategy : SyncStrategy}

theorem run_appendEntries_memory (strategy strategy' : SyncStrategy) (index : Appender) (entries : List IndexEntry)
    (memory : Memory) :
    (OpenPair.appendEntries strategy index entries).run Memory.handler memory =
      (OpenPair.appendEntries strategy' index entries).run Memory.handler memory := by
  rw [OpenPair.appendEntries, OpenPair.appendEntries, run_bind, run_bind]
  rcases (Program.append index (IndexEntry.encodeAll entries)).run Memory.handler memory with
    ⟨⟨error | ⟨⟩, index⟩, memory⟩
  · rfl
  · dsimp only
    rw [run_push_memory, run_push_memory]

/-- **In memory it makes no difference how a batch is pushed.** -/
theorem run_writeBatch_memory (strategy strategy' : SyncStrategy) (pair : OpenPair) (blocks : List Block)
    (memory : Memory) :
    (pair.writeBatch strategy blocks).run Memory.handler memory =
      (pair.writeBatch strategy' blocks).run Memory.handler memory := by
  rw [OpenPair.writeBatch, OpenPair.writeBatch, run_bind, run_bind]
  rcases (OpenPair.appendPayloads pair.data [] blocks).run Memory.handler memory with ⟨⟨error | entries, data⟩, memory⟩
  · rfl
  · dsimp only
    rw [run_bind, run_bind, run_push_memory, run_push_memory]
    dsimp only
    rw [run_bind, run_bind, run_appendEntries_memory strategy strategy']

namespace ShardWriter

/-- The same handler, which pushes in this way. -/
def pushing (strategy : SyncStrategy) (writer : ShardWriter) : ShardWriter := { writer with strategy }

theorem openPairFrom_pushing (writer : ShardWriter) (left : Nat) : ∀ number,
    (writer.pushing strategy).openPairFrom left number = writer.openPairFrom left number := by
  induction left with
  | zero =>
    intro number
    rw [openPairFrom.eq_def, openPairFrom.eq_def]
    rfl
  | succ left ih =>
    intro number
    rw [openPairFrom.eq_def, openPairFrom.eq_def]
    dsimp only
    simp only [ih]
    rfl

theorem openPair_pushing (writer : ShardWriter) : (writer.pushing strategy).openPair = writer.openPair := by
  rw [openPair, openPair, openPairFrom_pushing]
  rfl

theorem run_write_pushing (writer : ShardWriter) (blocks : List Block) (memory : Memory) :
    ((writer.pushing strategy).write blocks).run Memory.handler memory =
      let ((answer, writer), memory) := (writer.write blocks).run Memory.handler memory
      ((answer, writer.pushing strategy), memory) := by
  rw [write, write]
  cases checkBlocks blocks with
  | error fault => rfl
  | ok =>
    dsimp only
    rw [run_bind, run_bind, writeChecked, writeChecked, run_bind, run_bind, openPair_pushing]
    rcases writer.openPair.run Memory.handler memory with ⟨⟨error | pair, number⟩, memory⟩
    · rfl
    · dsimp only
      rw [run_bind, run_bind, run_writeBatch_memory _ writer.strategy]
      rcases (pair.writeBatch writer.strategy blocks).run Memory.handler memory with ⟨⟨error | _, pair⟩, memory⟩
      · rfl
      · rfl

theorem run_use_pushing (writer : ShardWriter) (what : Use) (memory : Memory) :
    ((writer.pushing strategy).use what).run Memory.handler memory =
      let ((answer, live), memory) := (writer.use what).run Memory.handler memory
      ((answer, live.map (pushing strategy)), memory) := by
  cases what with
  | write blocks =>
    rw [use, use, run_bind, run_bind, run_write_pushing]
    rfl
  | rollOver | close | drop =>
    obtain ⟨layout, range, shard, strategy', number, pair, blocksWritten⟩ := writer
    cases pair <;> rfl

theorem run_letGo_memory (live : Option ShardWriter) (memory : Memory) :
    (letGo live).run Memory.handler memory = ((), memory) := by
  cases live with
  | none => rfl
  | some writer =>
    rw [letGo, release.eq_def]
    cases writer.pair <;> rfl

theorem run_step_pushing (config : WriteConfig) (range : PartitionRange) (shard : String) (step : Step)
    (live : Option ShardWriter) (memory : Memory) :
    (ShardWriter.step { config with sync := strategy } range shard step (live.map (pushing strategy))).run
        Memory.handler memory =
      let ((answer, live), memory) := (ShardWriter.step config range shard step live).run Memory.handler memory
      ((answer, live.map (pushing strategy)), memory) := by
  cases step with
  | create =>
    have hcreate : create { config with sync := strategy } range shard =
        (create config range shard).map (pushing strategy) := by
      rw [create, create]
      split <;> rfl
    rw [ShardWriter.step, ShardWriter.step, run_bind, run_bind, run_letGo_memory, run_letGo_memory, hcreate]
    cases create config range shard <;> rfl
  | use what =>
    cases live with
    | none => rfl
    | some writer =>
      rw [Option.map_some, ShardWriter.step, ShardWriter.step, run_bind, run_bind, run_use_pushing]
      rfl

end ShardWriter

namespace Fleet

variable {κ : Type}

/-- The same handlers, which push in this way. -/
def pushing (strategy : SyncStrategy) (fleet : Fleet κ Memory) : Fleet κ Memory :=
  { fleet with writer := fun k => (fleet.writer k).map (ShardWriter.pushing strategy) }

variable [DecidableEq κ]

theorem act_pushing (config : WriteConfig) (place : κ → PartitionRange × String) (fleet : Fleet κ Memory) (k : κ)
    (step : Step) :
    (fleet.pushing strategy).act Memory.handler { config with sync := strategy } place k step =
      let (answer, fleet) := fleet.act Memory.handler config place k step
      (answer, fleet.pushing strategy) := by
  rw [act, pushing, ShardWriter.run_step_pushing]
  simp only [act, pushing, Function.apply_update fun _ => Option.map (ShardWriter.pushing strategy)]

theorem run_pushing (config : WriteConfig) (place : κ → PartitionRange × String) (actions : List (κ × Step)) :
    ∀ fleet : Fleet κ Memory,
      (fleet.pushing strategy).run Memory.handler { config with sync := strategy } place actions =
        let (answers, fleet) := fleet.run Memory.handler config place actions
        (answers, fleet.pushing strategy) := by
  induction actions with
  | nil => exact fun fleet => rfl
  | cons action actions ih =>
    intro fleet
    rw [run_cons, act_pushing]
    dsimp only
    rw [ih]
    rfl

end Fleet

end Pushing

end BlockShuffle
