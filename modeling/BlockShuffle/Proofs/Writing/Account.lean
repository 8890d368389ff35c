import Mathlib
import BlockShuffle.Proofs.Writing.Attempts

/-!
# The account of an attempt

The owner of an attempt makes blocks, acknowledges blocks, fails blocks and gives blocks to writers, in any order,
and the blocks need not be the attempt's own. `Event` is one such call with what came of it, and `Runs` says which
calls lead from one account to another, whatever the storages do that are written to.

An account is three sets of ids by partition, and each is a rule about the events: a block is acknowledged if it ever
was, failed if it ever did, and pending if it was made and since then neither (`Runs.has_pending_iff`). Nothing leaves
the first two, so one block can be in both of them.

The rules are about ids and leave their partitions out. For acknowledged and failed blocks that is a matter of
taste. For pending ones it is not: a block that is settled is looked for under the partition its id names, and the rule
would be wrong of a block that was pending under another. So all of them are proved of accounts that are `Filed`, which
a run keeps (`Runs.filed`), and what they come to by partition is said where reports are.

A `refused` call is an event although it changes nothing, so that a run can be told with all that was asked; how
numbers are given out does not depend on it.
-/

set_option autoImplicit false

namespace BlockShuffle

open Storage Program

namespace TaskAttempt

variable {attempt first mid last after : TaskAttempt} {partition : UInt32} {raw : UInt64}

/-! ## Events -/

/-- A block, with what it was made of. -/
structure Making where
  partition : UInt32
  payload : Bytes
  block : Block

/-- A call on an attempt, with what came of it. -/
inductive Event where
  | created (making : Making)
  /-- No block could be made. -/
  | refused (partition : UInt32) (payload : Bytes) (error : Error)
  | acknowledged (blocks : List Block)
  | failed (blocks : List Block)
  /-- Blocks were given to a writer, all of them with this outcome. -/
  | wrote (blocks : List Block) (outcome : Except Error Unit)

namespace Event

variable {event : Event}

/-- The blocks that the attempt is told were written. -/
def writtenBlocks : Event → List Block
  | .acknowledged blocks | .wrote blocks (.ok ()) => blocks
  | _ => []

/-- The blocks that the attempt is told were not. -/
def lostBlocks : Event → List Block
  | .failed blocks | .wrote blocks (.error _) => blocks
  | _ => []

/-- A block of this id is made. -/
def Creates (event : Event) (raw : UInt64) : Prop :=
  ∃ making, event = .created making ∧ making.block.id.raw = raw

/-- A block of this id counts as written. -/
def Acknowledges (event : Event) (raw : UInt64) : Prop := ∃ block ∈ event.writtenBlocks, block.id.raw = raw

/-- A block of this id counts as failed. -/
def Fails (event : Event) (raw : UInt64) : Prop := ∃ block ∈ event.lostBlocks, block.id.raw = raw

/-- A block of this id was acknowledged, failed, or given to a writer. -/
def Settles (event : Event) (raw : UInt64) : Prop := event.Acknowledges raw ∨ event.Fails raw

theorem Creates.not_settles (h : event.Creates raw) : ¬ event.Settles raw := by
  obtain ⟨making, rfl, -⟩ := h
  simp [Settles, Acknowledges, Fails, writtenBlocks, lostBlocks]

end Event

/-- One call on an attempt. Where no block can be made there is no new account, and the attempt goes on with the
one it has. -/
inductive Step : TaskAttempt → Event → TaskAttempt → Prop where
  | create {attempt after : TaskAttempt} {making : Making}
      (made : attempt.createBlock making.partition making.payload = .ok (making.block, after)) :
      Step attempt (.created making) after
  | refuse {attempt : TaskAttempt} {partition : UInt32} {payload : Bytes} {error : Error}
      (refused : attempt.createBlock partition payload = .error error) :
      Step attempt (.refused partition payload error) attempt
  | acknowledge (attempt : TaskAttempt) (blocks : List Block) :
      Step attempt (.acknowledged blocks) (attempt.acknowledge blocks)
  | fail (attempt : TaskAttempt) (blocks : List Block) : Step attempt (.failed blocks) (attempt.fail blocks)
  /-- A write, whichever the writer is and however its storage answers. -/
  | write {attempt after : TaskAttempt} {σ : Type} {handler : Handler σ} {s s' : σ} {writer writer' : ShardWriter}
      {blocks : List Block} {outcome : Except Error Unit}
      (wrote : (attempt.writeWith writer blocks).run handler s = ((outcome, after, writer'), s')) :
      Step attempt (.wrote blocks outcome) after

/-- Calls on an attempt, one after the other. -/
inductive Runs : TaskAttempt → List Event → TaskAttempt → Prop where
  | done (attempt : TaskAttempt) : Runs attempt [] attempt
  | next {attempt mid last : TaskAttempt} {event : Event} {events : List Event} (step : Step attempt event mid)
      (rest : Runs mid events last) : Runs attempt (event :: events) last

/-! ## What a call does to the sets -/

/-- A write counts its blocks by its outcome. -/
theorem after_writeWith {σ : Type} {handler : Handler σ} {s s' : σ} {writer writer' : ShardWriter}
    {blocks : List Block} {outcome : Except Error Unit}
    (h : (attempt.writeWith writer blocks).run handler s = ((outcome, after, writer'), s')) :
    after = match outcome with
      | .ok () => attempt.acknowledge blocks
      | .error _ => attempt.fail blocks := by
  rw [writeWith, run_bind] at h
  rcases hwrite : (writer.write blocks).run handler s with ⟨⟨error | ⟨⟩, written⟩, s₁⟩
  · rw [hwrite] at h
    cases h
    rfl
  · rw [hwrite] at h
    cases h
    rfl

/-- What a call does to each of the sets of an account. -/
structure Counts (attempt : TaskAttempt) (event : Event) (after : TaskAttempt) : Prop where
  succeeded : ∀ raw, after.succeeded.Has raw ↔ attempt.succeeded.Has raw ∨ event.Acknowledges raw
  failed : ∀ raw, after.failed.Has raw ↔ attempt.failed.Has raw ∨ event.Fails raw
  pending : ∀ raw, after.pending.Has raw ↔ attempt.pending.Has raw ∧ ¬ event.Settles raw ∨ event.Creates raw

theorem counts_acknowledge {blocks : List Block} {event : Event} (hf : attempt.Filed)
    (hwritten : event.writtenBlocks = blocks) (hlost : event.lostBlocks = [])
    (hmade : ∀ making, event ≠ .created making) : Counts attempt event (attempt.acknowledge blocks) where
  succeeded raw := by rw [has_succeeded_acknowledge, Event.Acknowledges, hwritten]
  failed raw := by simp [(attempt.acknowledge_frame blocks).2.2, Event.Fails, hlost]
  pending raw := by
    rw [acknowledge, has_foldl_remove (fun _ _ => rfl) hf.pending]
    simp [Event.Settles, Event.Acknowledges, Event.Fails, Event.Creates, hwritten, hlost, hmade]

theorem counts_fail {blocks : List Block} {event : Event} (hf : attempt.Filed)
    (hwritten : event.writtenBlocks = []) (hlost : event.lostBlocks = blocks)
    (hmade : ∀ making, event ≠ .created making) : Counts attempt event (attempt.fail blocks) where
  succeeded raw := by simp [(attempt.fail_frame blocks).2.2, Event.Acknowledges, hwritten]
  failed raw := by rw [fail, has_foldl_file fun _ _ => rfl, Event.Fails, hlost]
  pending raw := by
    rw [fail, has_foldl_remove (fun _ _ => rfl) hf.pending]
    simp [Event.Settles, Event.Acknowledges, Event.Fails, Event.Creates, hwritten, hlost, hmade]

/-- **Every call does to the sets what its event says.** -/
theorem Step.counts {event : Event} (h : Step attempt event after) (hf : attempt.Filed) :
    Counts attempt event after := by
  cases h with
  | create made =>
    obtain ⟨-, -, -, rfl⟩ := createBlock_eq_ok made
    constructor <;> intro raw
    · simp [Event.Acknowledges, Event.writtenBlocks]
    · simp [Event.Fails, Event.lostBlocks]
    · rw [PartitionedIds.has_file_iff]
      simp [Event.Settles, Event.Acknowledges, Event.Fails, Event.writtenBlocks, Event.lostBlocks, Event.Creates,
        eq_comm]
  | refuse refused =>
    constructor <;> intro raw <;>
      simp [Event.Settles, Event.Acknowledges, Event.Fails, Event.writtenBlocks, Event.lostBlocks, Event.Creates]
  | acknowledge blocks => exact counts_acknowledge hf rfl rfl (by simp)
  | fail blocks => exact counts_fail hf rfl rfl (by simp)
  | @write _ _ _ _ _ _ _ blocks outcome wrote =>
    rw [after_writeWith wrote]
    cases outcome with
    | ok => exact counts_acknowledge hf rfl rfl (by simp)
    | error error => exact counts_fail hf rfl rfl (by simp)

/-- **No call files an id where it does not belong.** -/
theorem Step.filed {event : Event} (h : Step attempt event after) (hf : attempt.Filed) : after.Filed := by
  cases h with
  | create made => exact hf.create made
  | refuse refused => exact hf
  | acknowledge blocks => exact hf.acknowledge
  | fail blocks => exact hf.fail
  | @write _ _ _ _ _ _ _ blocks outcome wrote =>
    rw [after_writeWith wrote]
    cases outcome with
    | ok => exact hf.acknowledge
    | error error => exact hf.fail

/-! ## What a run does to the sets -/

variable {events : List Event}

theorem Runs.filed (h : Runs first events last) (hf : first.Filed) : last.Filed := by
  induction h with
  | done attempt => exact hf
  | next step rest ih => exact ih (step.filed hf)

/-- A set that calls only add to has what was in it at first, and what one of the calls has added. -/
theorem Runs.has_iff {sets : TaskAttempt → PartitionedIds} {adds : Event → UInt64 → Prop}
    (hadds : ∀ {attempt event after}, Counts attempt event after →
      ∀ raw, (sets after).Has raw ↔ (sets attempt).Has raw ∨ adds event raw)
    (h : Runs first events last) (hf : first.Filed) :
    (sets last).Has raw ↔ (sets first).Has raw ∨ ∃ event ∈ events, adds event raw := by
  induction h with
  | done attempt => simp
  | next step rest ih =>
    rw [ih (step.filed hf), hadds (step.counts hf), or_assoc]
    simp only [List.mem_cons, exists_eq_or_imp]

theorem Runs.has_succeeded_iff (h : Runs first events last) (hf : first.Filed) :
    last.succeeded.Has raw ↔ first.succeeded.Has raw ∨ ∃ event ∈ events, event.Acknowledges raw :=
  h.has_iff Counts.succeeded hf

theorem Runs.has_failed_iff (h : Runs first events last) (hf : first.Filed) :
    last.failed.Has raw ↔ first.failed.Has raw ∨ ∃ event ∈ events, event.Fails raw :=
  h.has_iff Counts.failed hf

/-- A block of this id was made, and after that nothing became of it. -/
def LeftOpen (events : List Event) (raw : UInt64) : Prop :=
  ∃ before event behind, events = before ++ event :: behind ∧ event.Creates raw ∧
    ∀ later ∈ behind, ¬ later.Settles raw

theorem leftOpen_nil : ¬ LeftOpen [] raw := by
  rintro ⟨before, event, behind, hsplit, -⟩
  cases before <;> cases hsplit

theorem leftOpen_cons {event : Event} : LeftOpen (event :: events) raw ↔
    (event.Creates raw ∧ ∀ later ∈ events, ¬ later.Settles raw) ∨ LeftOpen events raw := by
  constructor
  · rintro ⟨before, made, behind, hsplit, hmade, hlater⟩
    cases before with
    | nil =>
      cases hsplit
      exact Or.inl ⟨hmade, hlater⟩
    | cons _ before =>
      cases hsplit
      exact Or.inr ⟨before, made, behind, rfl, hmade, hlater⟩
  · rintro (⟨hmade, hlater⟩ | ⟨before, made, behind, rfl, hmade, hlater⟩)
    · exact ⟨[], event, events, rfl, hmade, hlater⟩
    · exact ⟨event :: before, made, behind, rfl, hmade, hlater⟩

/-- **What is pending was made, and since then neither acknowledged nor failed.** -/
theorem Runs.has_pending_iff (h : Runs first events last) (hf : first.Filed) :
    last.pending.Has raw ↔
      (first.pending.Has raw ∧ ∀ event ∈ events, ¬ event.Settles raw) ∨ LeftOpen events raw := by
  induction h with
  | done attempt => simp [leftOpen_nil]
  | next step rest ih =>
    rw [ih (step.filed hf), (step.counts hf).pending, leftOpen_cons, List.forall_mem_cons]
    tauto

end TaskAttempt

end BlockShuffle
