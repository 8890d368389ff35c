import Mathlib
import BlockShuffle.Proofs.Delivery.Reference
import BlockShuffle.Proofs.Delivery.Safety
import BlockShuffle.Proofs.Reading.Feeding

/-!
# Reading a partition is one filter over its entries

On a storage that holds still, a reconciler that is asked until it has no more does what the reference does
to the entries of all indexes at once (`reading_eq_reference`). In between there are batches, some of which
hold nothing to deliver, a cursor over shards, and a processed set; `Pending` is what is left of all that
between two reads: batches that will be fed, and what the reference wants of them.

That no read fails is not assumed. A batch breaks at a block that is judged by its payload and does not
verify. Such a block is the first eligible one of its id, and of those the reference asks that they verify
(`Pending.not_broken`).

Two conditions are left to whoever uses the result. The data file of each shard holds what its index lists,
without which a read is lost; and of each expected block the first eligible copy has its checksum, without which
its batch is. Copies that nobody wants may be damaged and no condition is on them.

The accounts (`AccountsFor`) are stated apart from what is delivered, since they hold for reading as a whole and
are about the copies as a collection. A reconciler that was read to the end has counted every copy once, and
what it has processed is the ids with an eligible copy, so whether it is complete can be read off the copies
alone.
-/

set_option autoImplicit false

namespace BlockShuffle

open Storage Program

namespace Reconciler

open BlockCopy

/-! ## Reads -/

section Reads

variable {σ : Type} {handler : Handler σ} {good : σ → Prop}

/-- Taking in a batch, before its blocks are looked at. -/
theorem reconciles_countBatch (state : Reconciler) (reader : PartitionReader) :
    Reconciles state 1 [] [] { state with reader }.countBatch := by
  refine ⟨⟨rfl, rfl, rfl, rfl⟩, rfl, ?_, ?_, rfl, rfl, rfl, rfl, rfl, rfl⟩ <;> simp [countBatch]

theorem reconciles_exhausted (state : Reconciler) (reader : PartitionReader) :
    Reconciles state 0 [] [] { state with reader, exhausted := true } := by
  refine ⟨⟨rfl, rfl, rfl, rfl⟩, rfl, ?_, ?_, rfl, rfl, rfl, rfl, rfl, rfl⟩ <;> simp

/-- A copy that is wanted and verifies does not break its batch. -/
theorem judge_ne_fail {state : Reconciler} {batch : Batch} {slice : BlockSlice}
    (hinside : slice.offset + slice.length ≤ batch.buffer.length)
    (hcrc : slice.id.raw ∈ state.expected → slice.task ∈ state.tasks →
      slice.id.raw ∉ state.processed → state.checksum (batch.payload slice) = slice.crc)
    (error : Error) : state.judge (Packed.ofBytes batch.buffer) slice ≠ .fail error := by
  intro hfail
  by_cases hx : slice.id.raw ∈ state.expected
  · by_cases ht : slice.task ∈ state.tasks
    · by_cases hp : slice.id.raw ∈ state.processed
      · rw [judge_eq_duplicate_iff.mpr ⟨hx, ht, hp⟩] at hfail
        cases hfail
      · have hpayload : (Packed.ofBytes batch.buffer).slice? slice.offset slice.length =
            some (batch.payload slice) := slice?_eq_some_iff.mpr ⟨hinside, rfl⟩
        rw [judge_eq_deliver_iff.mpr ⟨hx, ht, hp, _, hpayload, hcrc hx ht hp⟩] at hfail
        cases hfail
    · rw [judge_eq_filtered_iff.mpr ⟨hx, ht⟩] at hfail
      cases hfail
  · rw [judge_eq_unexpected_iff.mpr hx] at hfail
    cases hfail

/-- What is left to feed, and what the reference wants of it. -/
structure Pending (handler : Handler σ) (good : σ → Prop) (state : Reconciler) (batches : List Batch) :
    Prop where
  going : state.isStopped = false
  placed : state.reader.Placed
  feeds : state.reader.Feeds handler good batches state.nextRead
  whole : ∀ batch ∈ batches, batch.Whole
  verifies : ∀ copy ∈ state.wanted (batches.flatMap Batch.copies), state.checksum copy.payload = copy.crc

/-- What the next read finds: the first of the pending batches, or the end of the stream. -/
theorem Pending.of_read {state : Reconciler} {batches : List Batch} {s s' : σ}
    {outcome : Except Error (Option Batch)} {reader : PartitionReader}
    (h : Pending handler good state batches) (hs : good s)
    (hread : (state.reader.read state.nextRead).run handler s = ((outcome, reader), s')) :
    good s' ∧ ((batches = [] ∧ outcome = .ok none) ∨
      ∃ batch rest, batches = batch :: rest ∧ outcome = .ok (some batch) ∧ reader.Placed ∧
        reader.Feeds handler good rest (state.nextRead + 1)) := by
  have hfeeds := h.feeds
  cases batches with
  | nil =>
    obtain ⟨houtcome, hgood⟩ := hfeeds s hs
    rw [hread] at houtcome hgood
    exact ⟨hgood, Or.inl ⟨rfl, houtcome⟩⟩
  | cons batch rest =>
    obtain ⟨⟨houtcome, hrest⟩, hgood⟩ := hfeeds s hs
    rw [hread] at houtcome hrest hgood
    exact ⟨hgood, Or.inr ⟨batch, rest, rfl, houtcome, (PartitionReader.placed_read h.placed hread).1,
      hrest⟩⟩

/-- Behind a batch that was settled, the others are pending. -/
theorem Pending.tail {state final : Reconciler} {reader : PartitionReader} {batch : Batch}
    {rest : List Batch} (h : Pending handler good state (batch :: rest)) (hplaced : reader.Placed)
    (hfeeds : reader.Feeds handler good rest (state.nextRead + 1)) {delivered : List BlockSlice}
    (hs : Settles (Packed.ofBytes batch.buffer) { state with reader }.countBatch batch.slices delivered
      final) :
    Pending handler good final rest ∧
      Reconciles state 1 batch.copies (delivered.map (BlockCopy.ofSlice batch.buffer)) final := by
  have hstretch := (reconciles_countBatch state reader).trans (hs.reconciles batch.buffer)
  obtain ⟨-, -, hc, hst⟩ := hstretch.settings
  obtain ⟨hreader, hnext⟩ := hs.reader_eq
  refine ⟨⟨hst.trans h.going, ?_, ?_, fun other ho => h.whole other (List.mem_cons_of_mem _ ho), ?_⟩,
    hstretch⟩
  · rw [hreader]
    exact hplaced
  · rw [hreader, hnext]
    exact hfeeds
  · intro copy hcopy
    rw [hc]
    apply h.verifies
    rw [List.flatMap_cons]
    exact (hstretch.wanted_append _).symm ▸ List.mem_append_right _ hcopy

/-- No pending batch breaks: a block that is judged by its payload is wanted, so it verifies. -/
theorem Pending.not_broken {state final : Reconciler} {reader : PartitionReader} {batch : Batch}
    {rest : List Batch} (h : Pending handler good state (batch :: rest))
    {front others lost : List BlockSlice} {slice : BlockSlice} (hlisted : batch.slices = front ++ slice :: others)
    (hs : Settles (Packed.ofBytes batch.buffer) { state with reader }.countBatch front lost final)
    (error : Error) : final.judge (Packed.ofBytes batch.buffer) slice ≠ .fail error := by
  have hstretch := (reconciles_countBatch state reader).trans (hs.reconciles batch.buffer)
  obtain ⟨hx, ht, hc, -⟩ := hstretch.settings
  apply judge_ne_fail (h.whole batch List.mem_cons_self slice (by rw [hlisted]; simp))
  intro hexpected htask hp
  rw [hx] at hexpected
  rw [ht] at htask
  rw [hc]
  apply h.verifies (.ofSlice batch.buffer slice)
  have hcopies : batch.copies = front.map (BlockCopy.ofSlice batch.buffer) ++
      .ofSlice batch.buffer slice :: others.map (BlockCopy.ofSlice batch.buffer) := by
    rw [Batch.copies, hlisted, List.map_append, List.map_cons]
  rw [List.flatMap_cons, hcopies, List.append_assoc, List.cons_append]
  have heligible : (BlockCopy.ofSlice batch.buffer slice).isEligible state.expected state.tasks = true := by
    simp [isEligible, hexpected, htask]
  exact hstretch.mem_wanted heligible hp _

/-- **One read of pending batches.** It does not fail. Either it delivers from a batch, past others that
had nothing to deliver, or there is nothing left to deliver and it ends the stream. -/
theorem Call.of_pending {state final : Reconciler} {s s' : σ} {answer : Answer} {lost : List BlockSlice}
    (call : Call handler state s answer lost final s') :
    ∀ {batches : List Batch}, Pending handler good state batches → good s →
      (answer = .ok none ∧ final.exhausted = true ∧ good s' ∧
        Reconciles state batches.length (batches.flatMap Batch.copies) [] final) ∨
      (∃ front rest batch, batches = front ++ rest ∧ 0 < front.length ∧
        answer = .ok (some batch) ∧ batch.slices ≠ [] ∧ good s' ∧
        Reconciles state front.length (front.flatMap Batch.copies) batch.copies final ∧
        Pending handler good final rest) := by
  induction call with
  | stopped ended =>
    intro batches h _
    rw [h.going] at ended
    cases ended
  | unread _ read =>
    intro batches h hs
    obtain ⟨-, ⟨-, hnone⟩ | ⟨_, _, -, hsome, -⟩⟩ := h.of_read hs read
    · cases hnone
    · cases hsome
  | exhausted _ read =>
    intro batches h hs
    obtain ⟨hgood, ⟨rfl, -⟩ | ⟨_, _, -, hsome, -⟩⟩ := h.of_read hs read
    · exact Or.inl ⟨rfl, rfl, hgood, reconciles_exhausted _ _⟩
    · cases hsome
  | broken _ read listed settled failed =>
    intro batches h hs
    obtain ⟨-, ⟨-, hnone⟩ | ⟨_, _, rfl, hsome, -⟩⟩ := h.of_read hs read
    · cases hnone
    · cases hsome
      exact absurd failed (h.not_broken listed settled _)
  | @skipped _ _ _ _ _ _ batch _ _ _ _ read settled _ ih =>
    intro batches h hs
    obtain ⟨hgood, ⟨-, hnone⟩ | ⟨_, others, rfl, hsome, hplaced, hfeeds⟩⟩ := h.of_read hs read
    · cases hnone
    · cases hsome
      obtain ⟨hpending, hstretch⟩ := h.tail hplaced hfeeds settled
      -- The stretch of the batch comes in front of whatever the rest of the call does.
      rcases ih hpending hgood with ⟨ha, hend, hgood', htail⟩ |
        ⟨front, rest, found, rfl, hfront, ha, hne, hgood', htail, hpending'⟩
      · refine Or.inl ⟨ha, hend, hgood', ?_⟩
        rw [List.length_cons, Nat.add_comm, List.flatMap_cons]
        exact hstretch.trans htail
      · refine Or.inr ⟨batch :: front, rest, found, rfl, Nat.succ_pos _, ha, hne, hgood', ?_, hpending'⟩
        rw [List.length_cons, Nat.add_comm, List.flatMap_cons]
        exact hstretch.trans htail
  | @delivered _ _ _ _ batch _ _ _ read settled nonempty =>
    intro batches h hs
    obtain ⟨hgood, ⟨-, hnone⟩ | ⟨_, others, rfl, hsome, hplaced, hfeeds⟩⟩ := h.of_read hs read
    · cases hnone
    · cases hsome
      obtain ⟨hpending, hstretch⟩ := h.tail hplaced hfeeds settled
      refine Or.inr ⟨[batch], others, _, rfl, Nat.one_pos, rfl, nonempty, hgood, ?_, hpending⟩
      rw [List.flatMap_cons, List.flatMap_nil, List.append_nil]
      exact hstretch

/-- **Reading to the end of the stream** delivers what the reference wants, and fails nowhere. -/
theorem drain (batches : List Batch) : ∀ {state : Reconciler} {s : σ},
    Pending handler good state batches → good s →
    ∃ (found : List Batch) (final : Reconciler) (s' : σ),
      (serve (List.replicate (found.length + 1) .read) state).run handler s =
        ((found.map (fun batch => .ok (some batch)) ++ [.ok none], final), s') ∧
      (∀ batch ∈ found, batch.slices ≠ []) ∧ final.exhausted = true ∧
      Reconciles state batches.length (batches.flatMap Batch.copies) (found.flatMap Batch.copies)
        final := by
  -- By the batches that are pending, not by the calls: a call may use up several.
  induction hlength : batches.length using Nat.strong_induction_on generalizing batches with
  | _ k ih =>
    intro state s h hs
    subst hlength
    rcases hread : state.read.run handler s with ⟨⟨answer, mid⟩, s₁⟩
    obtain ⟨lost, call⟩ := call_of_read h.placed hread
    rcases call.of_pending h hs with ⟨rfl, hend, -, hall⟩ |
      ⟨front, rest, batch, rfl, hfront, rfl, hne, hgood, hfirst, hpending⟩
    · refine ⟨[], mid, s₁, ?_, by simp, hend, hall⟩
      rw [List.length_nil, Nat.zero_add, List.replicate_one, serve, Program.run_bind, hread]
      rfl
    · obtain ⟨found, final, s', hrun, hnonempty, hend, hrest⟩ :=
        ih rest.length (by rw [List.length_append]; omega) rest rfl hpending hgood
      refine ⟨batch :: found, final, s', ?_, ?_, hend, ?_⟩
      · rw [List.length_cons, List.replicate_succ, serve, Program.run_bind, hread]
        dsimp only
        rw [Program.run_bind, hrun]
        rfl
      · intro other ho
        rcases List.mem_cons.mp ho with rfl | ho
        · exact hne
        · exact hnonempty other ho
      · rw [List.length_append, List.flatMap_append, List.flatMap_cons]
        exact hfirst.trans hrest

/-! ## A partition -/

/-- The copies that the indexes of open shards list, in order. -/
def listed (files : Path → Option Bytes) (shards : List ShardReader) : List BlockCopy :=
  shards.flatMap (indexCopies files)

/-- What the reference delivers of them, read from the start. -/
theorem wanted_fresh (shards : List ShardReader) (expected tasks : IdSet) (checksum : Checksum)
    (copies : List BlockCopy) :
    (fresh shards expected tasks checksum).wanted copies = deliveries expected tasks copies := by
  rw [wanted, List.filter_eq_self.mpr]
  · rfl
  · intro copy _
    simp [fresh, ofReader]

variable {files : Path → Option Bytes}

/-- **Reading open shards from the start to the end**, if their data files hold what their indexes list. -/
theorem reconciles_of_opened (hoffers : Offers handler good files) {config : ReadConfig}
    {shards : List ShardReader} (hopened : ∀ shard ∈ shards, shard.OpenedFrom files config)
    (hholds : ∀ shard ∈ shards, HoldsEntries files shard) {expected tasks : IdSet} {checksum : Checksum}
    (hverifies : ∀ copy ∈ deliveries expected tasks (listed files shards),
      checksum copy.payload = copy.crc) {s : σ} (hs : good s) :
    ∃ (found : List Batch) (final : Reconciler) (s' : σ),
      (serve (List.replicate (found.length + 1) .read) (fresh shards expected tasks checksum)).run
        handler s = ((found.map (fun batch => .ok (some batch)) ++ [.ok none], final), s') ∧
      (∀ batch ∈ found, batch.slices ≠ []) ∧ final.exhausted = true ∧
      Reconciles (fresh shards expected tasks checksum) (ShardReader.total shards)
        (listed files shards) (found.flatMap Batch.copies) final := by
  have hcopies : (shards.flatMap (batchesOf files)).flatMap Batch.copies = listed files shards := by
    rw [List.flatMap_assoc]
    apply List.flatMap_congr
    intro shard hshard
    exact (ShardReader.copies_of_openedFrom (hopened shard hshard) (hholds shard hshard)).2
  have hpending : Pending handler good (fresh shards expected tasks checksum)
      (shards.flatMap (batchesOf files)) := by
    refine ⟨rfl, placed_fresh shards expected tasks checksum, ?_, ?_, ?_⟩
    · apply PartitionReader.feeds_of_ready hoffers (Nat.zero_le _)
      · intro shard hshard
        exact ShardReader.ready_of_openedFrom (hopened shard hshard) (hholds shard hshard)
      · rfl
    · intro batch hb
      obtain ⟨shard, hshard, hb⟩ := List.mem_flatMap.mp hb
      exact (ShardReader.copies_of_openedFrom (hopened shard hshard) (hholds shard hshard)).1 batch hb
    · intro copy hcopy
      rw [hcopies, wanted_fresh] at hcopy
      exact hverifies copy hcopy
  obtain ⟨found, final, s', hrun, hne, hend, hall⟩ := drain _ hpending hs
  rw [length_flatMap_batchesOf, hcopies] at hall
  exact ⟨found, final, s', hrun, hne, hend, hall⟩

/-- The accounts that the reference keeps of some copies: each is counted once, as unexpected, as filtered,
as delivered or as a duplicate. -/
structure AccountsFor (expected tasks : IdSet) (copies : List BlockCopy) (final : Reconciler) : Prop where
  unexpectedBlocks : final.stats.unexpectedBlocks = copies.countP (isUnexpected expected)
  filteredByTask : final.stats.filteredByTask = copies.countP (isFiltered expected tasks)
  blocksDelivered : final.stats.blocksDelivered = (deliveries expected tasks copies).length
  duplicateBlocks : final.stats.blocksDelivered + final.stats.duplicateBlocks =
    copies.countP (isEligible expected tasks)
  counted : final.stats.unexpectedBlocks + final.stats.filteredByTask + final.stats.blocksDelivered +
    final.stats.duplicateBlocks = copies.length
  bytesDelivered : final.stats.bytesDelivered =
    ((deliveries expected tasks copies).map BlockCopy.length).sum
  mem_processed : ∀ id, id ∈ final.processed ↔ id ∈ ids (deliveries expected tasks copies)
  mem_superseded : ∀ id, id ∈ final.superseded ↔
    ∃ copy ∈ copies, copy.id.raw = id ∧ copy.isSuperseding expected tasks
  complete : final.checkComplete = .ok () ↔ ∀ id ∈ expected, ∃ copy ∈ copies,
    copy.id.raw = id ∧ (copy.isEligible expected tasks ∨ copy.isSuperseding expected tasks)

theorem Reconciles.accountsFor {shards : List ShardReader} {expected tasks : IdSet} {checksum : Checksum}
    {n : Nat} {copies delivered : List BlockCopy} {final : Reconciler}
    (h : Reconciles (fresh shards expected tasks checksum) n copies delivered final) :
    AccountsFor expected tasks copies final := by
  have hdelivered : delivered = deliveries expected tasks copies := by
    rw [h.delivered_eq, wanted_fresh]
  have hunexpected : final.stats.unexpectedBlocks = copies.countP (isUnexpected expected) := by
    rw [h.unexpectedBlocks]
    exact Nat.zero_add _
  have hfiltered : final.stats.filteredByTask = copies.countP (isFiltered expected tasks) := by
    rw [h.filteredByTask]
    exact Nat.zero_add _
  have hblocks : final.stats.blocksDelivered = (deliveries expected tasks copies).length := by
    rw [h.blocksDelivered, hdelivered]
    exact Nat.zero_add _
  have hduplicates : final.stats.blocksDelivered + final.stats.duplicateBlocks =
      copies.countP (isEligible expected tasks) := by
    have heligible := h.duplicateBlocks
    rw [hdelivered, ← hblocks, Nat.add_comm] at heligible
    rw [heligible]
    exact Nat.zero_add _
  have hprocessed : ∀ id, id ∈ final.processed ↔ id ∈ ids (deliveries expected tasks copies) := by
    intro id
    rw [h.mem_processed, hdelivered]
    simp [fresh, ofReader]
  have hsuperseded : ∀ id, id ∈ final.superseded ↔
      ∃ copy ∈ copies, copy.id.raw = id ∧ copy.isSuperseding expected tasks := by
    intro id
    rw [h.mem_superseded, BlockCopy.mem_ids]
    simp only [List.mem_filter, fresh, ofReader, Std.ExtTreeSet.not_mem_empty, or_false]
    constructor
    · rintro ⟨copy, ⟨hc, hsup⟩, heq⟩
      exact ⟨copy, hc, heq, hsup⟩
    · rintro ⟨copy, hc, heq, hsup⟩
      exact ⟨copy, ⟨hc, hsup⟩, heq⟩
  have hexpected : final.expected = expected := h.settings.1
  refine ⟨hunexpected, hfiltered, hblocks, hduplicates, ?_, ?_, hprocessed, hsuperseded, ?_⟩
  · rw [← BlockCopy.countP_add expected tasks copies]
    omega
  · rw [h.bytesDelivered, hdelivered]
    exact Nat.zero_add _
  · rw [checkComplete_eq_ok_iff, hexpected]
    refine forall₂_congr fun id _ => ?_
    rw [hprocessed, hsuperseded, deliveries, mem_ids_firsts, BlockCopy.mem_ids]
    constructor
    · rintro (⟨copy, hc, heq⟩ | ⟨copy, hc, heq, hsup⟩)
      · exact ⟨copy, (List.mem_filter.mp hc).1, heq, Or.inl (List.mem_filter.mp hc).2⟩
      · exact ⟨copy, hc, heq, Or.inr hsup⟩
    · rintro ⟨copy, hc, heq, heligible | hsup⟩
      · exact Or.inl ⟨copy, List.mem_filter.mpr ⟨hc, heligible⟩, heq⟩
      · exact Or.inr ⟨copy, hc, heq, hsup⟩

/-- **Reading is the reference.** A partition is opened on a storage that holds still, and read until there
is no more. Every data file holds what its index lists, and of each id the first eligible copy verifies.
Then no read fails, what they deliver is what the reference delivers, every planned read was made, and the
accounts are those of the reference. -/
theorem reading_eq_reference (hserves : Serves handler good files) {config : ReadConfig}
    {expected tasks : IdSet} {s s₀ : σ} (hs : good s) {opened : Reconciler}
    (hopen : (Reconciler.open config expected tasks).run handler s = (.ok opened, s₀))
    (hholds : ∀ shard ∈ opened.reader.shards, HoldsEntries files shard) (checksum : Checksum)
    (hverifies : ∀ copy ∈ deliveries expected tasks (listed files opened.reader.shards),
      checksum copy.payload = copy.crc) :
    ∃ (found : List Batch) (final : Reconciler) (s' : σ),
      (serve (List.replicate (found.length + 1) .read) { opened with checksum }).run handler s₀ =
        ((found.map (fun batch => .ok (some batch)) ++ [.ok none], final), s') ∧
      (∀ batch ∈ found, batch.slices ≠ []) ∧
      found.flatMap Batch.copies = deliveries expected tasks (listed files opened.reader.shards) ∧
      final.stats.batchesRead = opened.reader.readCount ∧ final.exhausted = true ∧
      AccountsFor expected tasks (listed files opened.reader.shards) final := by
  obtain ⟨hyields, hgood⟩ := yields_open hserves config expected tasks s hs
  rw [hopen] at hyields hgood
  obtain ⟨shards, rfl, hopened⟩ := hyields opened rfl
  obtain ⟨found, final, s', hrun, hne, hend, hall⟩ :=
    reconciles_of_opened hserves.offers hopened hholds hverifies hgood
  refine ⟨found, final, s', hrun, hne, ?_, ?_, hend, hall.accountsFor⟩
  · rw [hall.delivered_eq, wanted_fresh]
    rfl
  · rw [hall.batchesRead]
    exact Nat.zero_add _

end Reads

/-! ## A shard that lists one block twice -/

/-- The index entry of a block of one byte that starts at an offset. -/
def entryOfA (offset : UInt64) : IndexEntry := ⟨1, 1, crc32 [97], ⟨0⟩, 0, offset⟩

/-- A shard with two copies of the block. -/
def blockTwice : Memory :=
  ((Memory.mk []).insert (.ofText "m/a/0/0-0/w_0.data") ⟨.ofBytes [97, 97], by decide⟩).insert
    (.ofText "m/a/0/0-0/w_0.index")
    ⟨.ofBytes (IndexEntry.encodeAll [entryOfA 0, entryOfA 1]), by decide⟩

def copyOfA : BlockCopy := ⟨⟨0⟩, 0, 1, 1, crc32 [97], [97]⟩

/-- Both copies are listed, the first is delivered, and the second counts as a duplicate. -/
theorem reading_eq_reference_blockTwice :
    ∃ opened s₀ found final s',
      (Reconciler.open oneBlockConfig {0} {0}).run Memory.handler blockTwice = (.ok opened, s₀) ∧
      listed blockTwice.bytes? opened.reader.shards = [copyOfA, copyOfA] ∧
      (serve (List.replicate (List.length found + 1) .read) { opened with checksum := crc32 }).run
        Memory.handler s₀ = ((found.map (fun batch => .ok (some batch)) ++ [.ok none], final), s') ∧
      found.flatMap Batch.copies = [copyOfA] ∧ final.stats.duplicateBlocks = 1 ∧
      final.checkComplete = .ok () := by
  have hfacts : ((Reconciler.open oneBlockConfig {0} {0}).run Memory.handler blockTwice).1.toOption.any
      (fun opened => listed blockTwice.bytes? opened.reader.shards = [copyOfA, copyOfA] ∧
        opened.reader.shards.all fun shard =>
          (indexEntries blockTwice.bytes? shard.files.index).all fun entry =>
            (blockTwice.bytes? shard.files.data).any fun data => entry.stop ≤ data.length) = true := by
    decide +kernel
  rcases hrun : (Reconciler.open oneBlockConfig {0} {0}).run Memory.handler blockTwice with
    ⟨error | opened, s₀⟩
  · rw [hrun] at hfacts
    cases hfacts
  · rw [hrun] at hfacts
    simp only [Except.toOption, Option.any_some, decide_eq_true_eq] at hfacts
    obtain ⟨hlisted, hinside⟩ := hfacts
    have hholds : ∀ shard ∈ opened.reader.shards, HoldsEntries blockTwice.bytes? shard := by
      intro shard hshard entry hentry
      have hentries := List.all_eq_true.mp (List.all_eq_true.mp hinside shard hshard) entry hentry
      obtain ⟨data, hdata, hstop⟩ := (Option.any_eq_true _ _).mp hentries
      exact ⟨data, hdata, of_decide_eq_true hstop⟩
    have hdeliveries : deliveries {0} {0} [copyOfA, copyOfA] = [copyOfA] := by decide +kernel
    obtain ⟨found, final, s', hserve, -, hfound, -, -, haccounts⟩ :=
      reading_eq_reference (Memory.serves_memory blockTwice) rfl hrun hholds crc32 (by
        rw [hlisted, hdeliveries]
        decide +kernel)
    rw [hlisted] at hfound haccounts
    refine ⟨opened, s₀, found, final, s', rfl, hlisted, hserve, hfound.trans hdeliveries, ?_, ?_⟩
    · have heligible := haccounts.duplicateBlocks
      rw [haccounts.blocksDelivered, hdeliveries] at heligible
      have hcount : [copyOfA, copyOfA].countP (isEligible {0} {0}) = 2 := by decide +kernel
      rw [hcount, List.length_singleton] at heligible
      omega
    · rw [haccounts.complete]
      intro id hid
      have hzero : id = 0 := (IdSet.mem_insert_iff.mp hid).resolve_right Std.ExtTreeSet.not_mem_empty
      exact ⟨copyOfA, by simp, hzero.symm, Or.inl (by decide +kernel)⟩

end Reconciler

end BlockShuffle
