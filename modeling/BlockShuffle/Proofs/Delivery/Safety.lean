import Mathlib
import BlockShuffle.Proofs.Delivery.Accounting

/-!
# What is delivered, whatever the storage does

Nothing here is assumed of the storage: it is any way of answering calls, so it may make up index entries,
change a file between two reads, or fail when it likes. Whatever it does, `delivery_safe` holds of
everything that a reconciler hands out: each block was asked for, comes from an attempt that counts, lies
in the bytes it is handed out with, and has the checksum that its index entry says; no id is handed out
twice, in one answer or in two; and once the stream was ended it stays ended, with nothing added to any
account.

Nothing has to be assumed because nothing is trusted. The questions of `Reconciler.judge` are put to every
listed block, and the last of them looks at the bytes that are handed out, not at the file they came from.

The list of requests may stop the client in any way, ask again behind an error, and ask on behind the end. The
handler may answer by what it was asked before, since its state is its own. What cannot be had at this
generality is any promise that something *is* delivered; a storage that answers nothing delivers nothing, and
safety holds of it.

The checksum is a parameter as well. A handed-out payload has the checksum its entry says, by whichever function
is in use, and what that excludes is a property of the function (`Proofs/Crc32`).
-/

set_option autoImplicit false

namespace BlockShuffle

open Storage

namespace Reconciler

variable {σ : Type} {handler : Handler σ}

/-- A batch that may be handed out: it lists something, and of each listed block the id is expected, the
attempt counts, and the bytes are there and are the ones that were checksummed. -/
structure Deliverable (expected tasks : IdSet) (checksum : Checksum) (batch : Batch) : Prop where
  nonempty : batch.slices ≠ []
  expected_mem : ∀ slice ∈ batch.slices, slice.id.raw ∈ expected
  tasks_mem : ∀ slice ∈ batch.slices, slice.task ∈ tasks
  inside : ∀ slice ∈ batch.slices, slice.offset + slice.length ≤ batch.buffer.length
  checksum_eq : ∀ slice ∈ batch.slices, checksum (batch.payload slice) = slice.crc

/-- The blocks that settling a batch delivers may be handed out. -/
theorem Settles.deliverable {state final : Reconciler} {batch : Batch} {delivered : List BlockSlice}
    (h : Settles (Packed.ofBytes batch.buffer) state batch.slices delivered final)
    (nonempty : delivered ≠ []) :
    Deliverable state.expected state.tasks state.checksum { batch with slices := delivered } := by
  have hsound : ∀ slice ∈ delivered, slice.id.raw ∈ state.expected ∧ slice.task ∈ state.tasks ∧
      slice.offset + slice.length ≤ batch.buffer.length ∧
      state.checksum (batch.payload slice) = slice.crc := by
    intro slice hs
    obtain ⟨hx, ht, payload, hpayload, hcrc⟩ := h.sound hs
    obtain ⟨hin, hpayload⟩ := slice?_eq_some_iff.mp hpayload
    rw [← hpayload] at hcrc
    exact ⟨hx, ht, hin, hcrc⟩
  exact ⟨nonempty, fun slice hs => (hsound slice hs).1, fun slice hs => (hsound slice hs).2.1,
    fun slice hs => (hsound slice hs).2.2.1, fun slice hs => (hsound slice hs).2.2.2⟩

namespace Call

variable {state final : Reconciler} {s s' : σ} {answer : Answer} {lost : List BlockSlice}

/-- A call hands out nothing that may not be handed out. -/
theorem deliverable (h : Call handler state s answer lost final s') {batch : Batch}
    (ha : answer = .ok (some batch)) :
    Deliverable state.expected state.tasks state.checksum batch := by
  induction h with
  | stopped _ | unread _ _ | exhausted _ _ | broken _ _ _ _ _ => cases ha
  | delivered _ _ settled nonempty =>
    cases ha
    exact settled.deliverable nonempty
  | skipped _ _ settled _ ih =>
    have := ih ha
    rw [settled.expected_eq, settled.tasks_eq, settled.checksum_eq] at this
    exact this

theorem superseded_subset (h : Call handler state s answer lost final s') {id : UInt64}
    (hid : id ∈ state.superseded) : id ∈ final.superseded := by
  induction h with
  | stopped _ | unread _ _ | exhausted _ _ => exact hid
  | broken _ _ _ settled _ | delivered _ _ settled _ => exact settled.superseded_subset hid
  | skipped _ _ settled _ ih => exact ih (settled.superseded_subset hid)

end Call

namespace Session

variable {state final : Reconciler} {s s' : σ} {requests : List Request} {answers : List Answer}
  {losses : List BlockSlice}

theorem deliverable (h : Session handler state s requests answers losses final s') {batch : Batch}
    (ha : .ok (some batch) ∈ answers) :
    Deliverable state.expected state.tasks state.checksum batch := by
  induction h with
  | done => simp at ha
  | read call _ ih =>
    rcases List.mem_cons.mp ha with ha | ha
    · exact call.deliverable ha.symm
    · obtain ⟨hx, ht, hc, -⟩ := call.settings_eq
      have := ih ha
      rw [hx, ht, hc] at this
      exact this
  | cancel _ ih => exact ih ha
  | close _ ih =>
    rw [close_frame] at ih
    exact ih ha

theorem superseded_subset (h : Session handler state s requests answers losses final s') {id : UInt64}
    (hid : id ∈ state.superseded) : id ∈ final.superseded := by
  induction h with
  | done => exact hid
  | read call _ ih => exact ih (call.superseded_subset hid)
  | cancel _ ih => exact ih hid
  | close _ ih =>
    rw [close_frame] at ih
    exact ih hid

theorem processed_subset (h : Session handler state s requests answers losses final s') {id : UInt64}
    (hid : id ∈ state.processed) : id ∈ final.processed :=
  (h.accounts.1 id).mpr (Or.inr hid)

end Session

/-- **Delivery is safe against every storage.** A reconciler is opened on a storage that may answer
anything, is told which checksum to use, and serves requests, first some and then others. All it ever
hands out may be handed out; no id is handed out twice; what is processed or superseded after the first
requests still is after the others; and when the first ended the stream, the others find nothing and leave
every account as it was. -/
theorem delivery_safe {s s₀ : σ} {config : ReadConfig} {expected tasks : IdSet} {opened : Reconciler}
    (hopen : (Reconciler.open config expected tasks).run handler s = (.ok opened, s₀))
    (checksum : Checksum) (first others : List Request) :
    ∃ answers₁ state₁ s₁ answers₂ state₂ s₂,
      (serve first { opened with checksum }).run handler s₀ = ((answers₁, state₁), s₁) ∧
      (serve others state₁).run handler s₁ = ((answers₂, state₂), s₂) ∧
      (∀ batch, .ok (some batch) ∈ answers₁ ++ answers₂ →
        Deliverable expected tasks checksum batch) ∧
      (BlockSlice.ids (handedOutIn (answers₁ ++ answers₂))).Nodup ∧
      (∀ id ∈ state₁.processed, id ∈ state₂.processed) ∧
      (∀ id ∈ state₁.superseded, id ∈ state₂.superseded) ∧
      (.cancel ∈ first ∨ .close ∈ first →
        (∀ answer ∈ answers₂, answer = .ok none) ∧ state₂.processed = state₁.processed ∧
          state₂.superseded = state₁.superseded ∧ state₂.stats = state₁.stats) := by
  obtain ⟨shards, hfresh⟩ := exists_fresh_of_open hopen
  rw [hfresh]
  have hp := placed_fresh shards expected tasks checksum
  rcases hrun₁ : (serve first (fresh shards expected tasks checksum)).run handler s₀ with
    ⟨⟨answers₁, state₁⟩, s₁⟩
  obtain ⟨losses₁, hs₁⟩ := session_of_serve hp hrun₁
  rcases hrun₂ : (serve others state₁).run handler s₁ with ⟨⟨answers₂, state₂⟩, s₂⟩
  obtain ⟨losses₂, hs₂⟩ := session_of_serve (hs₁.placed hp) hrun₂
  -- Both parts are one session, so no id is handed out in each of them.
  have hs := hs₁.append hs₂
  refine ⟨answers₁, state₁, s₁, answers₂, state₂, s₂, rfl, hrun₂, fun batch hb => hs.deliverable hb,
    ?_, fun id hid => hs₂.processed_subset hid, fun id hid => hs₂.superseded_subset hid, ?_⟩
  · have hnodup := hs.nodup.1
    rw [BlockSlice.ids_append, List.nodup_append] at hnodup
    exact hnodup.1
  · intro hend
    obtain ⟨ha, -, hprocessed, hsuperseded, hstats, -⟩ := hs₂.of_stopped (hs₁.isStopped hend)
    exact ⟨ha, hprocessed, hsuperseded, hstats⟩

/-! ## A storage that holds one block -/

/-- Where the one block is read from. -/
def oneBlockConfig : ReadConfig := { basePaths := [⟨['m']⟩], app := "a", retry := .fixed 0 0 }

/-- The index entry of the one block. -/
def oneBlockEntry : IndexEntry := ⟨1, 1, crc32 [97], ⟨0⟩, 0, 0⟩

/-- The two files of the one block. -/
def oneBlock : Memory :=
  ((Memory.mk []).insert (.ofText "m/a/0/0-0/w_0.data") ⟨.ofBytes [97], by decide⟩).insert
    (.ofText "m/a/0/0-0/w_0.index") ⟨.ofBytes oneBlockEntry.encode, by decide⟩

/-- The storage with one block can be opened, so what is said of every opened reconciler is said of this
one. -/
theorem delivery_safe_oneBlock :
    ∃ opened s₀,
      (Reconciler.open oneBlockConfig {0} {0}).run Memory.handler oneBlock = (.ok opened, s₀) ∧
      ∃ answers₁ state₁ s₁ answers₂ state₂ s₂,
        (serve [.read, .close] { opened with checksum := crc32 }).run Memory.handler s₀ =
          ((answers₁, state₁), s₁) ∧
        (serve [.read] state₁).run Memory.handler s₁ = ((answers₂, state₂), s₂) ∧
        (∀ batch, .ok (some batch) ∈ answers₁ ++ answers₂ → Deliverable {0} {0} crc32 batch) ∧
        (BlockSlice.ids (handedOutIn (answers₁ ++ answers₂))).Nodup ∧
        (∀ answer ∈ answers₂, answer = .ok none) := by
  rcases hrun : (Reconciler.open oneBlockConfig {0} {0}).run Memory.handler oneBlock with
    ⟨error | opened, s₀⟩
  · have hok : ((Reconciler.open oneBlockConfig {0} {0}).run Memory.handler oneBlock).1.isOk = true := by
      decide +kernel
    rw [hrun] at hok
    cases hok
  · obtain ⟨answers₁, state₁, s₁, answers₂, state₂, s₂, hfirst, hothers, hdeliverable, hnodup, -, -,
      hended⟩ := delivery_safe hrun crc32 [.read, .close] [.read]
    exact ⟨opened, s₀, rfl, answers₁, state₁, s₁, answers₂, state₂, s₂, hfirst, hothers, hdeliverable,
      hnodup, (hended (Or.inr (by simp))).1⟩

end Reconciler

end BlockShuffle
