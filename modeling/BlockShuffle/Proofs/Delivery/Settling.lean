import Mathlib
import BlockShuffle.Proofs.IdSet
import BlockShuffle.Reconciler

/-!
# Settling one batch

`Reconciler.settleSlices` answers a pair: what is to be delivered, or the error of the block that failed,
and the state behind the last block looked at. The two go apart exactly where it matters. When a block
fails, the blocks in front of it were counted and their ids are processed, but the answer holds none of
them. So the facts here are not about the answer. `Settles` says that some blocks were put to a
reconciler one by one, none of them failing, and lists those that were counted as delivered;
`settleSlices_cases` says that settling a batch is always that, for the whole batch or for the part in
front of the block that failed.

Everything a batch does to the state is then read off `Settles`, once: what it leaves alone
(`Settles.frame`), what it adds to the processed set and to the counters, and what holds of each block it
delivers.

Nothing is said of where the batch came from, and its payloads need not be those that were written. The checksum
is a parameter, and so is everything that a batch may list: ids twice, slices that reach outside, attempts
nobody knows. What one block does is read off its verdict, and the verdicts are told apart once
(`Reconciler.judge`).

Counters and sets are in one relation because each of the later results needs another part of it, and none of
them can be had from the answer.
-/

set_option autoImplicit false

namespace BlockShuffle

/-- The ids of listed blocks. -/
def BlockSlice.ids (slices : List BlockSlice) : List UInt64 := slices.map fun slice => slice.id.raw

/-- How many payload bytes blocks have together. -/
def BlockSlice.bytes (slices : List BlockSlice) : Nat := (slices.map BlockSlice.length).sum

namespace BlockSlice

theorem mem_ids {id : UInt64} {slices : List BlockSlice} :
    id ∈ ids slices ↔ ∃ slice ∈ slices, slice.id.raw = id := by
  rw [ids, List.mem_map]

@[simp] theorem ids_nil : ids [] = [] := rfl

@[simp] theorem ids_cons (slice : BlockSlice) (slices : List BlockSlice) :
    ids (slice :: slices) = slice.id.raw :: ids slices := rfl

@[simp] theorem ids_append (slices others : List BlockSlice) :
    ids (slices ++ others) = ids slices ++ ids others := List.map_append

@[simp] theorem bytes_nil : bytes [] = 0 := rfl

@[simp] theorem bytes_cons (slice : BlockSlice) (slices : List BlockSlice) :
    bytes (slice :: slices) = slice.length + bytes slices := rfl

@[simp] theorem bytes_append (slices others : List BlockSlice) :
    bytes (slices ++ others) = bytes slices + bytes others := by
  rw [bytes, List.map_append, List.sum_append]
  rfl

theorem perm_ids {slices others : List BlockSlice} (h : slices.Perm others) :
    (ids slices).Perm (ids others) := h.map _

theorem bytes_eq_of_perm {slices others : List BlockSlice} (h : slices.Perm others) :
    bytes slices = bytes others := (h.map _).sum_eq

end BlockSlice

namespace Reconciler

/-! ## The questions

One iff for each answer, in the order the questions are put. -/

section Judge

variable {state : Reconciler} {buffer : Packed} {slice : BlockSlice}

variable (state buffer slice) in
theorem verify_cases : state.verify buffer slice = .deliver ∨
    ∃ error, state.verify buffer slice = .fail error := by
  unfold verify
  split
  · exact Or.inr ⟨_, rfl⟩
  · dsimp only
    split
    · exact Or.inl rfl
    · exact Or.inr ⟨_, rfl⟩

theorem verify_eq_deliver_iff : state.verify buffer slice = .deliver ↔
    ∃ payload, buffer.slice? slice.offset slice.length = some payload ∧
      state.checksum payload = slice.crc := by
  unfold verify
  cases hs : buffer.slice? slice.offset slice.length with
  | none => simp
  | some payload => simp

theorem judge_eq_unexpected_iff :
    state.judge buffer slice = .unexpected ↔ slice.id.raw ∉ state.expected := by
  unfold judge
  rcases verify_cases state buffer slice with h | ⟨error, h⟩ <;>
    rw [h, ← Std.ExtTreeSet.contains_iff_mem] <;> split_ifs <;> simp_all

theorem judge_eq_filtered_iff : state.judge buffer slice = .filtered ↔
    slice.id.raw ∈ state.expected ∧ slice.task ∉ state.tasks := by
  unfold judge
  rcases verify_cases state buffer slice with h | ⟨error, h⟩ <;>
    rw [h, ← Std.ExtTreeSet.contains_iff_mem, ← Std.ExtTreeSet.contains_iff_mem] <;>
    split_ifs <;> simp_all

theorem judge_eq_duplicate_iff : state.judge buffer slice = .duplicate ↔
    slice.id.raw ∈ state.expected ∧ slice.task ∈ state.tasks ∧ slice.id.raw ∈ state.processed := by
  unfold judge
  rcases verify_cases state buffer slice with h | ⟨error, h⟩ <;>
    rw [h, ← Std.ExtTreeSet.contains_iff_mem, ← Std.ExtTreeSet.contains_iff_mem,
      ← Std.ExtTreeSet.contains_iff_mem] <;>
    split_ifs <;> simp_all

/-- A block whose payload is looked at. -/
theorem judge_eq_verify (h : slice.id.raw ∈ state.expected) (ht : slice.task ∈ state.tasks)
    (hp : slice.id.raw ∉ state.processed) :
    state.judge buffer slice = state.verify buffer slice := by
  rw [← Std.ExtTreeSet.contains_iff_mem] at h ht hp
  unfold judge
  rw [if_neg (by simp [h]), if_neg (by simp [ht]), if_neg hp]

theorem judge_eq_deliver_iff : state.judge buffer slice = .deliver ↔
    slice.id.raw ∈ state.expected ∧ slice.task ∈ state.tasks ∧ slice.id.raw ∉ state.processed ∧
      ∃ payload, buffer.slice? slice.offset slice.length = some payload ∧
        state.checksum payload = slice.crc := by
  constructor
  · intro h
    have hx : slice.id.raw ∈ state.expected := by
      by_contra hx
      rw [judge_eq_unexpected_iff.mpr hx] at h
      cases h
    have ht : slice.task ∈ state.tasks := by
      by_contra ht
      rw [judge_eq_filtered_iff.mpr ⟨hx, ht⟩] at h
      cases h
    have hp : slice.id.raw ∉ state.processed := by
      intro hp
      rw [judge_eq_duplicate_iff.mpr ⟨hx, ht, hp⟩] at h
      cases h
    rw [judge_eq_verify hx ht hp] at h
    exact ⟨hx, ht, hp, verify_eq_deliver_iff.mp h⟩
  · rintro ⟨hx, ht, hp, hv⟩
    rw [judge_eq_verify hx ht hp]
    exact verify_eq_deliver_iff.mpr hv

end Judge

/-- Bytes cut from the buffer of a batch are inside it, and are the payload of the slice that says
where. -/
theorem slice?_eq_some_iff {batch : Batch} {slice : BlockSlice} {payload : Bytes} :
    (Packed.ofBytes batch.buffer).slice? slice.offset slice.length = some payload ↔
      slice.offset + slice.length ≤ batch.buffer.length ∧ batch.payload slice = payload := by
  rw [Packed.slice?_eq, Packed.toBytes_ofBytes, Bytes.slice?, Batch.payload]
  split_ifs with h <;> simp [h]

/-! ## Blocks that are settled -/

/-- The blocks of a read are put to a reconciler in order and none of them fails: the blocks, those of
them that are counted as delivered, and the state behind the last of them. -/
inductive Settles (buffer : Packed) :
    Reconciler → List BlockSlice → List BlockSlice → Reconciler → Prop where
  | done {state : Reconciler} : Settles buffer state [] [] state
  | unexpected {state final : Reconciler} {slice : BlockSlice} {slices delivered : List BlockSlice}
      (verdict : state.judge buffer slice = .unexpected)
      (rest : Settles buffer state.countUnexpected slices delivered final) :
      Settles buffer state (slice :: slices) delivered final
  | filtered {state final : Reconciler} {slice : BlockSlice} {slices delivered : List BlockSlice}
      (verdict : state.judge buffer slice = .filtered)
      (rest : Settles buffer (state.countFiltered slice) slices delivered final) :
      Settles buffer state (slice :: slices) delivered final
  | duplicate {state final : Reconciler} {slice : BlockSlice} {slices delivered : List BlockSlice}
      (verdict : state.judge buffer slice = .duplicate)
      (rest : Settles buffer state.countDuplicate slices delivered final) :
      Settles buffer state (slice :: slices) delivered final
  | deliver {state final : Reconciler} {slice : BlockSlice} {slices delivered : List BlockSlice}
      (verdict : state.judge buffer slice = .deliver)
      (rest : Settles buffer (state.countDelivered slice) slices delivered final) :
      Settles buffer state (slice :: slices) (slice :: delivered) final

/-- **Settling blocks settles them all, or all in front of the one that fails.** In the second case the
answer is the error, and what was counted as delivered before it is in the state only. -/
theorem settleSlices_cases {buffer : Packed} {slices : List BlockSlice} :
    ∀ {state final : Reconciler} {answer : Except Error (List BlockSlice)},
      state.settleSlices buffer slices = (answer, final) →
      (∃ delivered, answer = .ok delivered ∧ Settles buffer state slices delivered final) ∨
      (∃ error lost front slice rest, answer = .error error ∧ slices = front ++ slice :: rest ∧
        Settles buffer state front lost final ∧ final.judge buffer slice = .fail error) := by
  -- By the blocks, as the loop goes. What is in front of a block that fails stays counted, so both outcomes grow in
  -- front.
  induction slices with
  | nil =>
    intro state final answer h
    rw [settleSlices, Prod.mk.injEq] at h
    obtain ⟨rfl, rfl⟩ := h
    exact Or.inl ⟨[], rfl, .done⟩
  | cons slice slices ih =>
    intro state final answer h
    rw [settleSlices] at h
    cases hv : state.judge buffer slice with
    | unexpected =>
      rw [hv] at h
      rcases ih h with ⟨delivered, rfl, hs⟩ | ⟨error, lost, front, failing, rest, rfl, rfl, hs, hf⟩
      · exact Or.inl ⟨delivered, rfl, .unexpected hv hs⟩
      · exact Or.inr ⟨error, lost, slice :: front, failing, rest, rfl, rfl, .unexpected hv hs, hf⟩
    | filtered =>
      rw [hv] at h
      rcases ih h with ⟨delivered, rfl, hs⟩ | ⟨error, lost, front, failing, rest, rfl, rfl, hs, hf⟩
      · exact Or.inl ⟨delivered, rfl, .filtered hv hs⟩
      · exact Or.inr ⟨error, lost, slice :: front, failing, rest, rfl, rfl, .filtered hv hs, hf⟩
    | duplicate =>
      rw [hv] at h
      rcases ih h with ⟨delivered, rfl, hs⟩ | ⟨error, lost, front, failing, rest, rfl, rfl, hs, hf⟩
      · exact Or.inl ⟨delivered, rfl, .duplicate hv hs⟩
      · exact Or.inr ⟨error, lost, slice :: front, failing, rest, rfl, rfl, .duplicate hv hs, hf⟩
    | fail error =>
      rw [hv] at h
      simp only [Prod.mk.injEq] at h
      obtain ⟨rfl, rfl⟩ := h
      exact Or.inr ⟨error, [], [], slice, slices, rfl, rfl, .done, hv⟩
    | deliver =>
      rw [hv] at h
      rcases hr : (state.countDelivered slice).settleSlices buffer slices with ⟨found, last⟩
      rw [hr] at h
      simp only [Prod.mk.injEq] at h
      obtain ⟨rfl, rfl⟩ := h
      rcases ih hr with ⟨delivered, rfl, hs⟩ | ⟨error, lost, front, failing, rest, rfl, rfl, hs, hf⟩
      · exact Or.inl ⟨slice :: delivered, rfl, .deliver hv hs⟩
      · exact Or.inr ⟨error, slice :: lost, slice :: front, failing, rest, rfl, rfl, .deliver hv hs, hf⟩

namespace Settles

variable {buffer : Packed} {state final : Reconciler} {slices delivered : List BlockSlice}

/-- Settling touches the processed set, the superseded set and the counters only. -/
theorem frame (h : Settles buffer state slices delivered final) :
    final = { state with
      processed := final.processed, superseded := final.superseded, stats := final.stats } := by
  induction h with
  | done => rfl
  | unexpected _ _ ih => rw [ih]; rfl
  | filtered _ _ ih => rw [ih]; rfl
  | duplicate _ _ ih => rw [ih]; rfl
  | deliver _ _ ih => rw [ih]; rfl

theorem expected_eq (h : Settles buffer state slices delivered final) :
    final.expected = state.expected := by rw [h.frame]

theorem tasks_eq (h : Settles buffer state slices delivered final) :
    final.tasks = state.tasks := by rw [h.frame]

theorem checksum_eq (h : Settles buffer state slices delivered final) :
    final.checksum = state.checksum := by rw [h.frame]

/-- What is delivered was listed, in the same order. -/
theorem sublist (h : Settles buffer state slices delivered final) : delivered.Sublist slices := by
  induction h with
  | done => exact List.Sublist.refl []
  | unexpected _ _ ih | filtered _ _ ih | duplicate _ _ ih => exact ih.cons _
  | deliver _ _ ih => exact ih.cons_cons _

/-- The processed set grows by the ids that were counted as delivered, and by no other. -/
theorem mem_processed_iff (h : Settles buffer state slices delivered final) {id : UInt64} :
    id ∈ final.processed ↔ id ∈ BlockSlice.ids delivered ∨ id ∈ state.processed := by
  induction h with
  | done => simp
  | unexpected _ _ ih | filtered _ _ ih | duplicate _ _ ih => exact ih
  | deliver _ _ ih =>
    rw [ih, countDelivered, IdSet.mem_insert_iff, BlockSlice.ids_cons, List.mem_cons]
    tauto

theorem superseded_subset (h : Settles buffer state slices delivered final) {id : UInt64}
    (hid : id ∈ state.superseded) : id ∈ final.superseded := by
  induction h with
  | done => exact hid
  | unexpected _ _ ih | duplicate _ _ ih | deliver _ _ ih => exact ih hid
  | filtered _ _ ih =>
    apply ih
    unfold countFiltered
    dsimp only
    split
    · exact IdSet.mem_insert_iff.mpr (Or.inr hid)
    · exact hid

theorem blocksDelivered_eq (h : Settles buffer state slices delivered final) :
    final.stats.blocksDelivered = state.stats.blocksDelivered + delivered.length := by
  induction h with
  | done => rfl
  | unexpected _ _ ih | filtered _ _ ih | duplicate _ _ ih => exact ih
  | deliver _ _ ih =>
    rw [ih, countDelivered, List.length_cons]
    dsimp only
    omega

theorem bytesDelivered_eq (h : Settles buffer state slices delivered final) :
    final.stats.bytesDelivered = state.stats.bytesDelivered + BlockSlice.bytes delivered := by
  induction h with
  | done => rfl
  | unexpected _ _ ih | filtered _ _ ih | duplicate _ _ ih => exact ih
  | deliver _ _ ih =>
    rw [ih, countDelivered, BlockSlice.bytes_cons]
    dsimp only
    omega

/-- What is delivered was not delivered before. -/
theorem disjoint_processed (h : Settles buffer state slices delivered final) {id : UInt64}
    (hid : id ∈ BlockSlice.ids delivered) : id ∉ state.processed := by
  induction h with
  | done => simp at hid
  | unexpected _ _ ih | filtered _ _ ih | duplicate _ _ ih => exact ih hid
  | deliver verdict _ ih =>
    rw [BlockSlice.ids_cons, List.mem_cons] at hid
    rcases hid with rfl | hid
    · exact (judge_eq_deliver_iff.mp verdict).2.2.1
    · intro hp
      exact ih hid (IdSet.mem_insert_iff.mpr (Or.inr hp))

/-- No id is delivered twice from one batch. -/
theorem nodup (h : Settles buffer state slices delivered final) :
    (BlockSlice.ids delivered).Nodup := by
  induction h with
  | done => exact List.nodup_nil
  | unexpected _ _ ih | filtered _ _ ih | duplicate _ _ ih => exact ih
  | deliver _ rest ih =>
    rw [BlockSlice.ids_cons, List.nodup_cons]
    refine ⟨fun hid => ?_, ih⟩
    exact rest.disjoint_processed hid (IdSet.mem_insert_iff.mpr (Or.inl rfl))

/-- A delivered block is expected, of an expected attempt, inside the bytes read, and whole. -/
theorem sound (h : Settles buffer state slices delivered final) {slice : BlockSlice}
    (hs : slice ∈ delivered) :
    slice.id.raw ∈ state.expected ∧ slice.task ∈ state.tasks ∧
      ∃ payload, buffer.slice? slice.offset slice.length = some payload ∧
        state.checksum payload = slice.crc := by
  induction h with
  | done => simp at hs
  | unexpected _ _ ih | filtered _ _ ih | duplicate _ _ ih => exact ih hs
  | deliver verdict _ ih =>
    rcases List.mem_cons.mp hs with rfl | hs
    · obtain ⟨hx, ht, -, hv⟩ := judge_eq_deliver_iff.mp verdict
      exact ⟨hx, ht, hv⟩
    · exact ih hs

end Settles

end Reconciler

end BlockShuffle
