import Mathlib
import BlockShuffle.Proofs.Delivery.Settling
import BlockShuffle.Proofs.Reading.Plan

/-!
# The reference for delivering blocks

The reference knows no batches and keeps no state. Of all copies that the indexes list, in order, those are
eligible whose id and attempt are expected, and of the eligible ones the first of each id is delivered
(`BlockCopy.deliveries`).

What a reconciler does instead, batch by batch with a set of what it has processed, is compared with that
through `Reconciles`: it says of a stretch of reading everything the reference says of the copies in it.
Stretches can be put together (`Reconciles.trans`), and a settled batch is one (`Settles.reconciles`).

The reference takes a list of copies, with ids, attempts and payloads, and says nothing of how one comes by it;
which copies the indexes of a partition list is the reading modules' part. It has no checksums either, and no
failures, as it is meant for what is delivered when nothing is wrong. Where something is, the reconciler's own
steps are what is reasoned about (`Proofs/Delivery/Settling`).

`Reconciles` has a field for each counter and each set, because none of them can be recovered from what was
delivered: filtered and unexpected copies leave no other trace. Stretches compose, so an induction over batches
needs one lemma for a batch and one for two stretches behind one another, and no invariant beside it.
-/

set_option autoImplicit false

namespace BlockShuffle

/-! ## The reference -/

namespace BlockCopy

def ids (copies : List BlockCopy) : List UInt64 := copies.map fun copy => copy.id.raw

/-- The first copy of each id, in order. -/
def firsts : List BlockCopy → List BlockCopy
  | [] => []
  | copy :: rest => copy :: (firsts rest).filter fun other => other.id.raw ≠ copy.id.raw

/-- Nobody expects the block. -/
def isUnexpected (expected : IdSet) (copy : BlockCopy) : Bool := copy.id.raw ∉ expected

/-- The block is expected, but not from the attempt that wrote this copy. -/
def isFiltered (expected tasks : IdSet) (copy : BlockCopy) : Bool :=
  copy.id.raw ∈ expected ∧ copy.task ∉ tasks

/-- The block is expected, and from the attempt that wrote this copy. -/
def isEligible (expected tasks : IdSet) (copy : BlockCopy) : Bool :=
  copy.id.raw ∈ expected ∧ copy.task ∈ tasks

/-- A filtered copy whose id names the attempt that wrote it. -/
def isSuperseding (expected tasks : IdSet) (copy : BlockCopy) : Bool :=
  copy.isFiltered expected tasks ∧ copy.id.task = copy.task

/-- The first eligible copy of each id, in order. -/
def deliveries (expected tasks : IdSet) (copies : List BlockCopy) : List BlockCopy :=
  firsts (copies.filter (isEligible expected tasks))

@[simp] theorem ids_nil : ids [] = [] := rfl

@[simp] theorem ids_cons (copy : BlockCopy) (copies : List BlockCopy) :
    ids (copy :: copies) = copy.id.raw :: ids copies := rfl

@[simp] theorem ids_append (copies others : List BlockCopy) :
    ids (copies ++ others) = ids copies ++ ids others := List.map_append

theorem mem_ids {id : UInt64} {copies : List BlockCopy} :
    id ∈ ids copies ↔ ∃ copy ∈ copies, copy.id.raw = id := List.mem_map

theorem firsts_sublist (copies : List BlockCopy) : (firsts copies).Sublist copies := by
  induction copies with
  | nil => exact List.Sublist.refl []
  | cons copy copies ih => exact (List.filter_sublist.trans ih).cons_cons copy

theorem mem_ids_firsts (copies : List BlockCopy) {id : UInt64} :
    id ∈ ids (firsts copies) ↔ id ∈ ids copies := by
  induction copies with
  | nil => rfl
  | cons copy copies ih =>
    rw [firsts, ids_cons, ids_cons, List.mem_cons, List.mem_cons, ← ih]
    by_cases hid : id = copy.id.raw
    · simp [hid]
    · simp only [hid, false_or, mem_ids, List.mem_filter, decide_eq_true_eq]
      constructor
      · rintro ⟨other, ⟨ho, -⟩, heq⟩
        exact ⟨other, ho, heq⟩
      · rintro ⟨other, ho, heq⟩
        exact ⟨other, ⟨ho, heq ▸ hid⟩, heq⟩

theorem nodup_ids_firsts (copies : List BlockCopy) : (ids (firsts copies)).Nodup := by
  induction copies with
  | nil => exact List.nodup_nil
  | cons copy copies ih =>
    rw [firsts, ids_cons, List.nodup_cons]
    constructor
    · rw [mem_ids]
      rintro ⟨other, ho, heq⟩
      exact of_decide_eq_true (List.mem_filter.mp ho).2 heq
    · exact ih.sublist (List.filter_sublist.map _)

/-- Behind other copies, the first of an id is first unless it was there before. -/
theorem firsts_append (copies others : List BlockCopy) :
    firsts (copies ++ others) =
      firsts copies ++ (firsts others).filter fun copy => copy.id.raw ∉ ids copies := by
  induction copies with
  | nil => simp [firsts]
  | cons copy copies ih =>
    rw [List.cons_append, firsts, ih, firsts, List.filter_append, List.filter_filter, List.cons_append]
    congr 3
    funext other
    simp [ids_cons]

/-- Every copy is unexpected, filtered or eligible, and no copy is two of these. -/
theorem countP_add (expected tasks : IdSet) (copies : List BlockCopy) :
    copies.countP (isUnexpected expected) + copies.countP (isFiltered expected tasks) +
      copies.countP (isEligible expected tasks) = copies.length := by
  induction copies with
  | nil => rfl
  | cons copy copies ih =>
    simp only [List.countP_cons, List.length_cons]
    by_cases hx : copy.id.raw ∈ expected <;> by_cases ht : copy.task ∈ tasks <;>
      simp only [isUnexpected, isFiltered, isEligible, hx, ht] <;> simp <;> omega

end BlockCopy

/-! ## Stretches of reading -/

namespace Reconciler

open BlockCopy

/-- Of some copies, those that the reference delivers behind what was processed already. -/
def wanted (state : Reconciler) (copies : List BlockCopy) : List BlockCopy :=
  (deliveries state.expected state.tasks copies).filter fun copy => copy.id.raw ∉ state.processed

/-- Between two states, batches were read that hold some copies, and of these some were delivered: what the
reference says of the copies is what became of the state. -/
structure Reconciles (state : Reconciler) (batches : Nat) (copies delivered : List BlockCopy)
    (final : Reconciler) : Prop where
  settings : final.expected = state.expected ∧ final.tasks = state.tasks ∧
    final.checksum = state.checksum ∧ final.isStopped = state.isStopped
  delivered_eq : delivered = state.wanted copies
  mem_processed : ∀ id, id ∈ final.processed ↔ id ∈ ids delivered ∨ id ∈ state.processed
  mem_superseded : ∀ id, id ∈ final.superseded ↔
    id ∈ ids (copies.filter (isSuperseding state.expected state.tasks)) ∨ id ∈ state.superseded
  batchesRead : final.stats.batchesRead = state.stats.batchesRead + batches
  blocksDelivered : final.stats.blocksDelivered = state.stats.blocksDelivered + delivered.length
  bytesDelivered : final.stats.bytesDelivered =
    state.stats.bytesDelivered + (delivered.map BlockCopy.length).sum
  unexpectedBlocks : final.stats.unexpectedBlocks =
    state.stats.unexpectedBlocks + copies.countP (isUnexpected state.expected)
  filteredByTask : final.stats.filteredByTask =
    state.stats.filteredByTask + copies.countP (isFiltered state.expected state.tasks)
  duplicateBlocks : final.stats.duplicateBlocks + delivered.length =
    state.stats.duplicateBlocks + copies.countP (isEligible state.expected state.tasks)

namespace Reconciles

variable {state mid final : Reconciler} {n m : Nat} {copies others delivered delivered' : List BlockCopy}

/-- What the reference delivers of copies, and of more behind them. -/
theorem wanted_append (h : Reconciles state n copies delivered mid) (more : List BlockCopy) :
    state.wanted (copies ++ more) = delivered ++ mid.wanted more := by
  obtain ⟨hx, ht, -, -⟩ := h.settings
  rw [wanted, deliveries, List.filter_append, firsts_append, List.filter_append, h.delivered_eq]
  congr 1
  rw [List.filter_filter, wanted, deliveries, hx, ht]
  congr 1
  funext copy
  -- Not processed in between: neither before, nor among the eligible copies in front.
  have hmem := h.mem_processed copy.id.raw
  rw [h.delivered_eq, wanted, deliveries] at hmem
  by_cases hp : copy.id.raw ∈ state.processed
  · simp [hp, hmem]
  · have hdelivered : copy.id.raw ∈ ids ((firsts (copies.filter
        (isEligible state.expected state.tasks))).filter fun copy => copy.id.raw ∉ state.processed) ↔
        copy.id.raw ∈ ids (copies.filter (isEligible state.expected state.tasks)) := by
      rw [← mem_ids_firsts (copies.filter _), mem_ids, mem_ids]
      constructor
      · rintro ⟨other, ho, heq⟩
        exact ⟨other, (List.mem_filter.mp ho).1, heq⟩
      · rintro ⟨other, ho, heq⟩
        exact ⟨other, List.mem_filter.mpr ⟨ho, by simpa [heq] using hp⟩, heq⟩
    rw [hdelivered] at hmem
    simp [hp, hmem]

theorem trans (h : Reconciles state n copies delivered mid)
    (h' : Reconciles mid m others delivered' final) :
    Reconciles state (n + m) (copies ++ others) (delivered ++ delivered') final := by
  obtain ⟨hx, ht, hc, hst⟩ := h.settings
  obtain ⟨hx', ht', hc', hst'⟩ := h'.settings
  refine ⟨⟨hx'.trans hx, ht'.trans ht, hc'.trans hc, hst'.trans hst⟩, ?_, ?_, ?_, ?_, ?_, ?_, ?_, ?_, ?_⟩
  · rw [h.wanted_append, ← h'.delivered_eq]
  · intro id
    rw [h'.mem_processed, h.mem_processed, ids_append, List.mem_append]
    tauto
  · intro id
    rw [h'.mem_superseded, h.mem_superseded, hx, ht, List.filter_append, ids_append, List.mem_append]
    tauto
  · rw [h'.batchesRead, h.batchesRead, Nat.add_assoc]
  · rw [h'.blocksDelivered, h.blocksDelivered, List.length_append, Nat.add_assoc]
  · rw [h'.bytesDelivered, h.bytesDelivered, List.map_append, List.sum_append, Nat.add_assoc]
  · rw [h'.unexpectedBlocks, h.unexpectedBlocks, hx, List.countP_append, Nat.add_assoc]
  · rw [h'.filteredByTask, h.filteredByTask, hx, ht, List.countP_append, Nat.add_assoc]
  · have hleft := h.duplicateBlocks
    have hright := h'.duplicateBlocks
    rw [hx, ht] at hright
    rw [List.countP_append, List.length_append]
    omega

/-- An id is processed behind a stretch if it was before, or if the stretch has an eligible copy of it. -/
theorem mem_processed_iff (h : Reconciles state n copies delivered mid) {id : UInt64} :
    id ∈ mid.processed ↔
      id ∈ ids (copies.filter (isEligible state.expected state.tasks)) ∨ id ∈ state.processed := by
  rw [h.mem_processed, h.delivered_eq, wanted, deliveries, ← mem_ids_firsts (copies.filter _)]
  by_cases hp : id ∈ state.processed
  · simp [hp]
  · simp only [hp, or_false, mem_ids, List.mem_filter, decide_eq_true_eq]
    constructor
    · rintro ⟨copy, ⟨hc, -⟩, heq⟩
      exact ⟨copy, hc, heq⟩
    · rintro ⟨copy, hc, rfl⟩
      exact ⟨copy, ⟨hc, hp⟩, rfl⟩

/-- An eligible copy that was not processed before a stretch, nor in it, is wanted behind it. -/
theorem mem_wanted (h : Reconciles state n copies delivered mid) {copy : BlockCopy}
    (hc : copy.isEligible state.expected state.tasks = true) (hp : copy.id.raw ∉ mid.processed)
    (more : List BlockCopy) : copy ∈ state.wanted (copies ++ copy :: more) := by
  obtain ⟨hx, ht, -, -⟩ := h.settings
  rw [h.wanted_append, List.mem_append]
  right
  rw [wanted, deliveries, hx, ht, List.filter_cons_of_pos hc, firsts, List.mem_filter]
  exact ⟨List.mem_cons_self, by simpa using hp⟩

end Reconciles

/-! ## One copy -/

section One

variable {state : Reconciler} {buffer : Bytes} {slice : BlockSlice}

theorem reconciles_refl (state : Reconciler) : Reconciles state 0 [] [] state := by
  refine ⟨⟨rfl, rfl, rfl, rfl⟩, rfl, ?_, ?_, rfl, rfl, rfl, rfl, rfl, rfl⟩ <;> simp

theorem reconciles_unexpected (h : slice.id.raw ∉ state.expected) :
    Reconciles state 0 [.ofSlice buffer slice] [] state.countUnexpected := by
  refine ⟨⟨rfl, rfl, rfl, rfl⟩, ?_, ?_, ?_, rfl, rfl, rfl, ?_, ?_, ?_⟩ <;>
    simp [wanted, deliveries, firsts, isUnexpected, isFiltered, isEligible, isSuperseding, h, countUnexpected]

theorem reconciles_filtered (h : slice.id.raw ∈ state.expected) (ht : slice.task ∉ state.tasks) :
    Reconciles state 0 [.ofSlice buffer slice] [] (state.countFiltered slice) := by
  refine ⟨⟨rfl, rfl, rfl, rfl⟩, ?_, ?_, ?_, rfl, rfl, rfl, ?_, ?_, ?_⟩
  case refine_3 =>
    -- The id accounts for the block only where it names the attempt that the index names.
    intro id
    by_cases hid : slice.id.task = slice.task
    · rw [countFiltered, if_pos hid, IdSet.mem_insert_iff]
      simp [isSuperseding, isFiltered, h, ht, hid]
    · rw [countFiltered, if_neg hid]
      simp [isSuperseding, hid]
  all_goals simp [wanted, deliveries, firsts, isUnexpected, isFiltered, isEligible, h, ht, countFiltered]

theorem reconciles_duplicate (h : slice.id.raw ∈ state.expected) (ht : slice.task ∈ state.tasks)
    (hp : slice.id.raw ∈ state.processed) :
    Reconciles state 0 [.ofSlice buffer slice] [] state.countDuplicate := by
  refine ⟨⟨rfl, rfl, rfl, rfl⟩, ?_, ?_, ?_, rfl, rfl, rfl, ?_, ?_, ?_⟩ <;>
    simp [wanted, deliveries, firsts, isUnexpected, isFiltered, isEligible, isSuperseding, h, ht, hp, countDuplicate]

theorem reconciles_delivered (h : slice.id.raw ∈ state.expected) (ht : slice.task ∈ state.tasks)
    (hp : slice.id.raw ∉ state.processed) :
    Reconciles state 0 [.ofSlice buffer slice] [.ofSlice buffer slice] (state.countDelivered slice) := by
  refine ⟨⟨rfl, rfl, rfl, rfl⟩, ?_, ?_, ?_, rfl, ?_, ?_, ?_, ?_, ?_⟩
  case refine_2 =>
    intro id
    rw [countDelivered, IdSet.mem_insert_iff, ids_cons, List.mem_cons]
    simp
  all_goals simp [wanted, deliveries, firsts, isUnexpected, isFiltered, isEligible, isSuperseding, h, ht, hp,
    countDelivered]

/-- **Settled blocks are a stretch of reading.** -/
theorem Settles.reconciles {final : Reconciler} {packed : Packed} {slices delivered : List BlockSlice}
    (h : Settles packed state slices delivered final) (buffer : Bytes) :
    Reconciles state 0 (slices.map (BlockCopy.ofSlice buffer)) (delivered.map (BlockCopy.ofSlice buffer))
      final := by
  induction h with
  | done => exact reconciles_refl _
  | unexpected verdict _ ih =>
    exact (reconciles_unexpected (judge_eq_unexpected_iff.mp verdict)).trans ih
  | filtered verdict _ ih =>
    obtain ⟨hx, ht⟩ := judge_eq_filtered_iff.mp verdict
    exact (reconciles_filtered hx ht).trans ih
  | duplicate verdict _ ih =>
    obtain ⟨hx, ht, hp⟩ := judge_eq_duplicate_iff.mp verdict
    exact (reconciles_duplicate hx ht hp).trans ih
  | deliver verdict _ ih =>
    obtain ⟨hx, ht, hp, -⟩ := judge_eq_deliver_iff.mp verdict
    exact (reconciles_delivered hx ht hp).trans ih

end One

end Reconciler

end BlockShuffle
