import Mathlib
import BlockShuffle.ShardWriter
import BlockShuffle.Storage.Faults
import BlockShuffle.Proofs.Storage.Memory

/-!
# Memory whose calls fail at will

Any call may fail, in any order and any number of times; a failing append first hands over any part of its
bytes. Which calls do is a sequence that is fixed beforehand and quantified over by whoever runs a program,
so a statement about all sequences is one about every way that storage can fail.

`Program.Ensures` is what is said of a program then: from every memory of which `pre` holds, however calls
fail, it ends in one of which `post` holds. There is one rule for each call that a writer makes, with a case
for each thing that can happen.

The failures are in the state of the storage, and the state is quantified over, so there is no probability, no
bound on how many there are and no condition on how they are spread. What is fixed is what a failing call may
have done. An append may have handed over any front of its bytes, all of them included; opening, pushing and the
rest have done nothing.

Conditions are on the memory alone and do not mention the failures to come, which is what lets a loop's
invariant be used at any of its rounds. The rules cite the memory's equations; nothing below this module is
unfolded by the proofs about writers.
-/

set_option autoImplicit false

namespace BlockShuffle

open Storage

/-- A memory, and how the calls still to come fail: with which error, and how many bytes of a failing append
reach the memory. -/
structure Unreliable where
  memory : Memory
  failures : Nat → Option (IoError × Nat)

namespace Unreliable

/-- The answer to a call is the memory's, unless the call is one that can fail and is the next to. -/
def handler : Handler Unreliable := fun call state =>
  let rest := fun count => state.failures (count + 1)
  match call.shown?, state.failures 0 with
  | some _, some (error, keep) =>
    let (answer, memory) := Faulty.fail Memory.handler error keep call state.memory
    (answer, ⟨memory, rest⟩)
  | _, _ =>
    let (answer, memory) := Memory.handler call state.memory
    (answer, ⟨memory, rest⟩)

theorem handler_cases (call : Call) (state : Unreliable) :
    ((handler call state).1 = (Memory.handler call state.memory).1 ∧
      (handler call state).2.memory = (Memory.handler call state.memory).2) ∨
    ∃ error keep, (handler call state).1 = (Faulty.fail Memory.handler error keep call state.memory).1 ∧
      (handler call state).2.memory = (Faulty.fail Memory.handler error keep call state.memory).2 := by
  unfold handler
  dsimp only
  split
  · exact Or.inr ⟨_, _, rfl, rfl⟩
  · exact Or.inl ⟨rfl, rfl⟩

end Unreliable

namespace Storage.Program

variable {α β : Type} {pre : Memory → Prop}

/-- From every memory with `pre`, whichever calls fail, the program ends with a value and a memory with
`post`. -/
def Ensures (program : Program α) (pre : Memory → Prop) (post : α → Memory → Prop) : Prop :=
  ∀ state : Unreliable, pre state.memory →
    post (program.run Unreliable.handler state).1 (program.run Unreliable.handler state).2.memory

theorem ensures_done {value : α} {post : α → Memory → Prop} (h : ∀ memory, pre memory → post value memory) :
    (Program.done value).Ensures pre post :=
  fun state hpre => h state.memory hpre

theorem Ensures.bind {program : Program α} {next : α → Program β} {mid : α → Memory → Prop}
    {post : β → Memory → Prop} (h : program.Ensures pre mid)
    (hnext : ∀ value, (next value).Ensures (mid value) post) : (program >>= next).Ensures pre post := by
  intro state hpre
  rw [run_bind]
  exact hnext _ _ (h state hpre)

theorem Ensures.mono {program : Program α} {pre' : Memory → Prop} {post post' : α → Memory → Prop}
    (h : program.Ensures pre post) (hpre : ∀ memory, pre' memory → pre memory)
    (hpost : ∀ value memory, post value memory → post' value memory) : program.Ensures pre' post' :=
  fun state hs => hpost _ _ (h state (hpre _ hs))

theorem Ensures.and {program : Program α} {pre' : Memory → Prop} {post post' : α → Memory → Prop}
    (h : program.Ensures pre post) (h' : program.Ensures pre' post') :
    program.Ensures (fun memory => pre memory ∧ pre' memory)
      fun value memory => post value memory ∧ post' value memory :=
  fun state hs => ⟨h state hs.1, h' state hs.2⟩

/-- What is known of the memory at the start may be taken out of it, and be used for the choice of what is
said of the rest. -/
theorem Ensures.of_each {program : Program α} {post : α → Memory → Prop}
    (h : ∀ memory, pre memory → program.Ensures (· = memory) post) : program.Ensures pre post :=
  fun state hpre => h state.memory hpre state rfl

theorem Ensures.from_memory {program : Program α} {post : α → Memory → Prop} (h : program.Ensures pre post)
    {memory : Memory} (hpre : pre memory) : program.Ensures (· = memory) post :=
  fun state hs => h state (hs ▸ hpre)

/-! ## Calls -/

theorem ensures_openAppend {path : Path} {post : Except IoError Appender → Memory → Prop}
    (hfail : ∀ memory error, pre memory → post (.error error) memory)
    (hpass : ∀ memory, pre memory →
      post (.ok (Memory.openAppend path memory).1) (Memory.openAppend path memory).2) :
    (Program.openAppend path).Ensures pre post := by
  intro state hpre
  change post (Unreliable.handler (.openAppend path) state).1
    (Unreliable.handler (.openAppend path) state).2.memory
  rcases Unreliable.handler_cases (.openAppend path) state with ⟨ha, hm⟩ | ⟨error, keep, ha, hm⟩
  · rw [ha, hm]
    exact hpass _ hpre
  · rw [ha, hm]
    exact hfail _ error hpre

/-- An append may fail with nothing handed over, fail behind part of its bytes, or hand all of them over. -/
theorem ensures_append {appender : Appender} {bytes : Bytes}
    {post : Except IoError Unit × Appender → Memory → Prop}
    (hfail : ∀ memory error, pre memory → post (.error error, appender) memory)
    (hcut : ∀ memory contents longer error count, pre memory →
      memory.find? appender.path = some contents → contents.append? (bytes.take count) = some longer →
      post (.error error, { appender with position := longer.size })
        (memory.insert appender.path longer))
    (hpass : ∀ memory contents longer, pre memory →
      memory.find? appender.path = some contents → contents.append? bytes = some longer →
      post (.ok (), { appender with position := longer.size })
        (memory.insert appender.path longer)) :
    (Program.append appender bytes).Ensures pre post := by
  intro state hpre
  change post (Unreliable.handler (.append appender bytes) state).1
    (Unreliable.handler (.append appender bytes) state).2.memory
  -- The call passes, or it fails behind a part of the bytes; either way it is the append of what got through.
  rcases Unreliable.handler_cases (.append appender bytes) state with ⟨ha, hm⟩ | ⟨error, keep, ha, hm⟩
  · rw [ha, hm]
    change post (Memory.append appender bytes state.memory).1 (Memory.append appender bytes state.memory).2
    rcases Memory.append_cases appender bytes state.memory with
      ⟨error, heq⟩ | ⟨contents, longer, hfind, hlonger, heq⟩ <;> rw [heq]
    · exact hfail _ _ hpre
    · exact hpass _ _ _ hpre hfind hlonger
  · rw [ha, hm, Faulty.fail]
    split
    · exact hfail _ _ hpre
    · change post ((Memory.append appender (bytes.take keep) state.memory).1.1 >>= _, _) _
      change post (_, (Memory.append appender (bytes.take keep) state.memory).1.2)
        (Memory.append appender (bytes.take keep) state.memory).2
      rcases Memory.append_cases appender (bytes.take keep) state.memory with
        ⟨error, heq⟩ | ⟨contents, longer, hfind, hlonger, heq⟩ <;> rw [heq]
      · exact hfail _ _ hpre
      · exact hcut _ _ _ _ _ hpre hfind hlonger

theorem ensures_flush {appender : Appender} :
    (Program.flush appender).Ensures pre fun result memory => result.2 = appender ∧ pre memory := by
  intro state hpre
  change (Unreliable.handler (.flush appender) state).1.2 = appender ∧
    pre (Unreliable.handler (.flush appender) state).2.memory
  rcases Unreliable.handler_cases (.flush appender) state with ⟨ha, hm⟩ | ⟨error, keep, ha, hm⟩
  · rw [ha, hm]
    exact ⟨rfl, hpre⟩
  · rw [ha, hm]
    exact ⟨rfl, hpre⟩

theorem ensures_sync {appender : Appender} :
    (Program.sync appender).Ensures pre fun result memory => result.2 = appender ∧ pre memory := by
  intro state hpre
  change (Unreliable.handler (.sync appender) state).1.2 = appender ∧
    pre (Unreliable.handler (.sync appender) state).2.memory
  rcases Unreliable.handler_cases (.sync appender) state with ⟨ha, hm⟩ | ⟨error, keep, ha, hm⟩
  · rw [ha, hm]
    exact ⟨rfl, hpre⟩
  · rw [ha, hm]
    exact ⟨rfl, hpre⟩

/-- A push leaves memory as it is, and the appender with it. -/
theorem ensures_push {strategy : SyncStrategy} {appender : Appender} :
    (OpenPair.push strategy appender).Ensures pre
      fun result memory => result.2 = appender ∧ pre memory := by
  cases strategy with
  | everyBatch => exact ensures_sync
  | osBuffered => exact ensures_flush

theorem ensures_release {appender : Appender} :
    (Program.release appender).Ensures pre fun _ memory => pre memory :=
  fun _ hpre => hpre

end Storage.Program

end BlockShuffle
