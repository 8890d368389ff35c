import Mathlib
import BlockShuffle.Proofs.Delivery.Reference
import BlockShuffle.Proofs.Delivery.Safety

/-!
# What the completeness check excuses

The check passes over an expected block that was never delivered if the block is superseded. That is a strong
excuse, so it matters what grants it: an entry that was *examined*, of an attempt that does not count, and whose id
names that same attempt. `Examines` lists what one read examines. Of a batch that is read to its end that is every
entry, and of one that breaks, the entries in front of the one that fails, which is neither counted nor excused.
`ExaminesIn` strings reads together, with cancellations and closings between them.

The superseded set is what the examined entries make of it (`ExaminesIn.mem_superseded_iff`), whatever the storage
answers and whether or not the reads fail. An id that names an attempt that counts is never in it, because the one
attempt that could excuse it does count.

What the check answers is stated in full: the numbers in its message, and which ids it lists, ten of them at
most and the smallest first. It can be asked at any time, and asking changes nothing. Before the end of the
partition it may fail for blocks that are still to come; once it has passed it passes for good, since neither of
the two sets loses a member.

Whether an excuse is right is not for the check to know. An attempt that was superseded has left blocks which
nobody is to deliver, and an id that it shares with an expected block would be a mistake of whoever drew up the
list.
-/

set_option autoImplicit false

namespace BlockShuffle

open Storage

/-- One of these entries excuses the block of this id: its attempt does not count, and is the one that the id
names. -/
def BlockSlice.Excused (tasks : IdSet) (slices : List BlockSlice) (id : UInt64) : Prop :=
  ∃ slice ∈ slices, slice.id.raw = id ∧ slice.task ∉ tasks ∧ slice.task = (BlockId.mk id).task

theorem BlockSlice.excused_append {tasks : IdSet} {slices others : List BlockSlice} {id : UInt64} :
    Excused tasks (slices ++ others) id ↔ Excused tasks slices id ∨ Excused tasks others id := by
  simp only [Excused, List.mem_append, or_and_right, exists_or]

namespace Reconciler

variable {σ : Type} {handler : Handler σ}

/-- The superseded set grows by the expected ids that the settled entries excuse, and by no other. -/
theorem Settles.mem_superseded_iff {buffer : Packed} {state final : Reconciler} {slices delivered : List BlockSlice}
    (h : Settles buffer state slices delivered final) {id : UInt64} :
    id ∈ final.superseded ↔
      id ∈ state.expected ∧ BlockSlice.Excused state.tasks slices id ∨ id ∈ state.superseded := by
  rw [(h.reconciles []).mem_superseded, BlockCopy.mem_ids]
  apply or_congr_left
  simp only [List.mem_filter, List.mem_map, BlockCopy.isSuperseding, BlockCopy.isFiltered, decide_eq_true_eq]
  constructor
  · rintro ⟨_, ⟨⟨slice, hs, rfl⟩, ⟨hexpected, htask⟩, hagrees⟩, rfl⟩
    exact ⟨hexpected, slice, hs, rfl, htask, hagrees.symm⟩
  · rintro ⟨hexpected, slice, hs, rfl, htask, hagrees⟩
    exact ⟨_, ⟨⟨slice, hs, rfl⟩, ⟨hexpected, htask⟩, hagrees.symm⟩, rfl⟩

/-! ## One read -/

/-- One read from a state of the reconciler and of the storage, the entries that it examines in order, and both
states behind it. -/
inductive Examines (handler : Handler σ) : Reconciler → σ → List BlockSlice → Reconciler → σ → Prop where
  | stopped {state : Reconciler} {s : σ} (ended : state.isStopped = true) : Examines handler state s [] state s
  | unread {state : Reconciler} {s s' : σ} {error : Error} {reader : PartitionReader}
      (going : state.isStopped = false)
      (read : (state.reader.read state.nextRead).run handler s = ((.error error, reader), s')) :
      Examines handler state s [] { state with reader } s'
  | exhausted {state : Reconciler} {s s' : σ} {reader : PartitionReader}
      (going : state.isStopped = false)
      (read : (state.reader.read state.nextRead).run handler s = ((.ok none, reader), s')) :
      Examines handler state s [] { state with reader, exhausted := true } s'
  /-- The batch breaks: the entries in front of the one that fails. -/
  | broken {state final : Reconciler} {s s' : σ} {batch : Batch} {reader : PartitionReader}
      {front rest lost : List BlockSlice} {slice : BlockSlice} {error : Error}
      (going : state.isStopped = false)
      (read : (state.reader.read state.nextRead).run handler s = ((.ok (some batch), reader), s'))
      (listed : batch.slices = front ++ slice :: rest)
      (settled : Settles (Packed.ofBytes batch.buffer) { state with reader }.countBatch front lost final)
      (failed : final.judge (Packed.ofBytes batch.buffer) slice = .fail error) :
      Examines handler state s front final s'
  /-- The batch has nothing to deliver: all of its entries, and what is examined behind it. -/
  | skipped {state mid final : Reconciler} {s s' s'' : σ} {batch : Batch} {reader : PartitionReader}
      {later : List BlockSlice}
      (going : state.isStopped = false)
      (read : (state.reader.read state.nextRead).run handler s = ((.ok (some batch), reader), s'))
      (settled : Settles (Packed.ofBytes batch.buffer) { state with reader }.countBatch batch.slices [] mid)
      (next : Examines handler mid s' later final s'') :
      Examines handler state s (batch.slices ++ later) final s''
  /-- The batch has something to deliver: all of its entries. -/
  | delivered {state final : Reconciler} {s s' : σ} {batch : Batch} {reader : PartitionReader}
      {delivered : List BlockSlice}
      (going : state.isStopped = false)
      (read : (state.reader.read state.nextRead).run handler s = ((.ok (some batch), reader), s'))
      (settled : Settles (Packed.ofBytes batch.buffer) { state with reader }.countBatch batch.slices
        delivered final)
      (nonempty : delivered ≠ []) :
      Examines handler state s batch.slices final s'

/-- Every read examines some entries. -/
theorem Call.exists_examines {state final : Reconciler} {s s' : σ} {answer : Answer} {lost : List BlockSlice}
    (h : Call handler state s answer lost final s') : ∃ examined, Examines handler state s examined final s' := by
  induction h with
  | stopped ended => exact ⟨[], .stopped ended⟩
  | unread going read => exact ⟨[], .unread going read⟩
  | exhausted going read => exact ⟨[], .exhausted going read⟩
  | broken going read listed settled failed => exact ⟨_, .broken going read listed settled failed⟩
  | skipped going read settled _ ih =>
    obtain ⟨later, next⟩ := ih
    exact ⟨_, .skipped going read settled next⟩
  | delivered going read settled nonempty => exact ⟨_, .delivered going read settled nonempty⟩

theorem Examines.settings_eq {state final : Reconciler} {s s' : σ} {examined : List BlockSlice}
    (h : Examines handler state s examined final s') :
    final.expected = state.expected ∧ final.tasks = state.tasks := by
  induction h with
  | stopped _ | unread _ _ | exhausted _ _ => exact ⟨rfl, rfl⟩
  | broken _ _ _ settled _ | delivered _ _ settled _ => exact ⟨settled.expected_eq, settled.tasks_eq⟩
  | skipped _ _ settled _ ih => exact ⟨ih.1.trans settled.expected_eq, ih.2.trans settled.tasks_eq⟩

theorem Examines.mem_superseded_iff {state final : Reconciler} {s s' : σ} {examined : List BlockSlice}
    (h : Examines handler state s examined final s') {id : UInt64} :
    id ∈ final.superseded ↔
      id ∈ state.expected ∧ BlockSlice.Excused state.tasks examined id ∨ id ∈ state.superseded := by
  induction h with
  | stopped _ | unread _ _ | exhausted _ _ => simp [BlockSlice.Excused]
  | broken _ _ _ settled _ | delivered _ _ settled _ => exact settled.mem_superseded_iff
  | skipped _ _ settled _ ih =>
    rw [ih, settled.mem_superseded_iff, settled.expected_eq, settled.tasks_eq, BlockSlice.excused_append,
      and_or_left, or_assoc, or_left_comm]
    rfl

/-! ## Any requests -/

/-- Requests served one after the other, and the entries that the reads among them examine, in order. -/
inductive ExaminesIn (handler : Handler σ) :
    Reconciler → σ → List Request → List BlockSlice → Reconciler → σ → Prop where
  | done {state : Reconciler} {s : σ} : ExaminesIn handler state s [] [] state s
  | read {state mid final : Reconciler} {s s' s'' : σ} {requests : List Request} {examined later : List BlockSlice}
      (first : Examines handler state s examined mid s')
      (rest : ExaminesIn handler mid s' requests later final s'') :
      ExaminesIn handler state s (.read :: requests) (examined ++ later) final s''
  | cancel {state final : Reconciler} {s s' : σ} {requests : List Request} {examined : List BlockSlice}
      (rest : ExaminesIn handler state.cancel s requests examined final s') :
      ExaminesIn handler state s (.cancel :: requests) examined final s'
  | close {state final : Reconciler} {s s' : σ} {requests : List Request} {examined : List BlockSlice}
      (rest : ExaminesIn handler state.close s requests examined final s') :
      ExaminesIn handler state s (.close :: requests) examined final s'

theorem Session.exists_examinesIn {state final : Reconciler} {s s' : σ} {requests : List Request}
    {answers : List Answer} {losses : List BlockSlice}
    (h : Session handler state s requests answers losses final s') :
    ∃ examined, ExaminesIn handler state s requests examined final s' := by
  induction h with
  | done => exact ⟨[], .done⟩
  | read call _ ih =>
    obtain ⟨examined, first⟩ := call.exists_examines
    obtain ⟨later, rest⟩ := ih
    exact ⟨_, .read first rest⟩
  | cancel _ ih =>
    obtain ⟨examined, rest⟩ := ih
    exact ⟨examined, .cancel rest⟩
  | close _ ih =>
    obtain ⟨examined, rest⟩ := ih
    exact ⟨examined, .close rest⟩

/-- **What is superseded is what was excused**, by an entry that was examined. -/
theorem ExaminesIn.mem_superseded_iff {state final : Reconciler} {s s' : σ} {requests : List Request}
    {examined : List BlockSlice} (h : ExaminesIn handler state s requests examined final s') {id : UInt64} :
    id ∈ final.superseded ↔
      id ∈ state.expected ∧ BlockSlice.Excused state.tasks examined id ∨ id ∈ state.superseded := by
  induction h with
  | done => simp [BlockSlice.Excused]
  | read first _ ih =>
    obtain ⟨hexpected, htasks⟩ := first.settings_eq
    rw [ih, first.mem_superseded_iff, hexpected, htasks, BlockSlice.excused_append, and_or_left, or_assoc,
      or_left_comm]
  | cancel _ ih => exact ih
  | close _ ih =>
    rw [close_frame] at ih
    exact ih

/-! ## The check -/

/-- A failing check names what is missing, smallest first. -/
theorem exists_absent_of_checkComplete {state : Reconciler} {error : Error} (h : state.checkComplete = .error error) :
    ∃ absent : List UInt64, absent ≠ [] ∧ absent.Pairwise (· < ·) ∧
      (∀ id, id ∈ absent ↔ id ∈ state.expected ∧ id ∉ state.processed ∧ id ∉ state.superseded) ∧
      error = .dataLoss (.missingBlocks state.expected.size state.processed.size absent.length
        (absent.take sampleSize)) := by
  rw [checkComplete] at h
  split at h
  · cases h
  · rename_i hmissing
    cases h
    refine ⟨state.missing.toList, ?_, IdSet.pairwise_toList _, fun id => ?_, ?_⟩
    · intro hnil
      apply hmissing
      rw [IdSet.isEmpty_iff_forall_not_mem]
      intro id hid
      rw [← Std.ExtTreeSet.mem_toList, hnil] at hid
      cases hid
    · rw [Std.ExtTreeSet.mem_toList, missing, Std.ExtTreeSet.mem_diff_iff, Std.ExtTreeSet.mem_diff_iff, and_assoc]
    · rw [Std.ExtTreeSet.length_toList]

/-- A check that passes goes on passing while more is read, on whatever has become of the storage. -/
theorem checkComplete_serve {state : Reconciler} (hplaced : state.reader.Placed) (h : state.checkComplete = .ok ())
    (requests : List Request) (s : σ) :
    ((serve requests state).run handler s).1.2.checkComplete = .ok () := by
  rcases hrun : (serve requests state).run handler s with ⟨⟨answers, final⟩, s'⟩
  obtain ⟨losses, hs⟩ := session_of_serve hplaced hrun
  rw [checkComplete_eq_ok_iff] at h ⊢
  intro id hid
  rw [hs.settings_eq.1] at hid
  exact (h id hid).imp hs.processed_subset hs.superseded_subset

/-- **The completeness check excuses only what it should.** Whatever the storage answers, after any requests:

* the check passes exactly when every expected id is processed, or was examined under an attempt that does not count
  and that the id names;
* an id that names an attempt that counts is not superseded, so that only being processed satisfies the check;
* when the check fails, its error counts the expected ids, the processed ids and those that are missing, of which it
  names the ten smallest in ascending order;
* once the check passes, it passes after any further requests. -/
theorem completeness_excuses_superseded_only (handler : Handler σ) (s : σ) (shards : List ShardReader)
    (expected tasks : IdSet) (checksum : Checksum) (requests : List Request) :
    ∃ answers final s' examined,
      (serve requests (fresh shards expected tasks checksum)).run handler s = ((answers, final), s') ∧
      ExaminesIn handler (fresh shards expected tasks checksum) s requests examined final s' ∧
      (final.checkComplete = .ok () ↔ ∀ id ∈ expected, id ∈ final.processed ∨
        BlockSlice.Excused tasks examined id) ∧
      (∀ id ∈ expected, (BlockId.mk id).task ∈ tasks → id ∉ final.superseded ∧
        (final.checkComplete = .ok () → id ∈ final.processed)) ∧
      (∀ error, final.checkComplete = .error error → ∃ absent : List UInt64,
        absent ≠ [] ∧ absent.Pairwise (· < ·) ∧
        (∀ id, id ∈ absent ↔ id ∈ expected ∧ id ∉ final.processed ∧ id ∉ final.superseded) ∧
        error = .dataLoss
          (.missingBlocks expected.size final.processed.size absent.length (absent.take 10)) ∧
        error.message = "Blocks read inconsistent: " ++
          (s!"expected {expected.size} blocks, processed {final.processed.size} blocks, {absent.length} missing, " ++
            s!"first missing: {listText (absent.take 10)}")) ∧
      (final.checkComplete = .ok () → ∀ (further : List Request) (s₁ : σ),
        ((serve further final).run handler s₁).1.2.checkComplete = .ok ()) := by
  rcases hrun : (serve requests (fresh shards expected tasks checksum)).run handler s with ⟨⟨answers, final⟩, s'⟩
  have hplaced := placed_fresh shards expected tasks checksum
  obtain ⟨losses, hs⟩ := session_of_serve hplaced hrun
  obtain ⟨examined, hexamines⟩ := hs.exists_examinesIn
  have hexpected : final.expected = expected := hs.settings_eq.1
  have hsuperseded : ∀ id, id ∈ final.superseded ↔
      id ∈ expected ∧ BlockSlice.Excused tasks examined id := by
    intro id
    rw [hexamines.mem_superseded_iff]
    simp [fresh, ofReader]
  -- A block that supersedes its id has the task of the id, which is then one that does not count.
  have hnamed : ∀ id ∈ expected, (BlockId.mk id).task ∈ tasks → id ∉ final.superseded := by
    intro id _ htask hid
    obtain ⟨-, slice, -, -, hcounts, hagrees⟩ := (hsuperseded id).mp hid
    exact hcounts (hagrees ▸ htask)
  refine ⟨answers, final, s', examined, rfl, hexamines, ?_, fun id hid htask => ⟨hnamed id hid htask, ?_⟩, ?_, ?_⟩
  · rw [checkComplete_eq_ok_iff, hexpected]
    refine forall₂_congr fun id hid => or_congr_right ?_
    rw [hsuperseded, and_iff_right hid]
  · intro hcheck
    rw [checkComplete_eq_ok_iff, hexpected] at hcheck
    exact (hcheck id hid).resolve_right (hnamed id hid htask)
  · intro error herror
    obtain ⟨absent, hne, hpairwise, hmem, rfl⟩ := exists_absent_of_checkComplete herror
    rw [hexpected] at hmem ⊢
    exact ⟨absent, hne, hpairwise, hmem, rfl, rfl⟩
  · exact fun hcheck further s₁ => checkComplete_serve (hs.placed hplaced) hcheck further s₁

end Reconciler

end BlockShuffle
