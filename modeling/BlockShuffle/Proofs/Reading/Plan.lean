import Mathlib
import BlockShuffle.Batch
import BlockShuffle.Block

/-!
# A plan reads every entry where it lies

Planning regroups the entries of an index: into groups, inside these into batches, and each batch becomes
one read with its blocks at offsets from the start of the read. `ofEntries_eq_ok_iff` undoes all of it. A
plan is a list of pieces that put behind one another are the entries again (`flatMap_pieces`), each turned
into a read.

What a reader then finds is said without offsets, through `BlockCopy`: what an index says of a block and
the bytes it points at. `copies_ofBatch` says that reading a piece's span and cutting it up gives the same
copies as following each entry into the data file. That is where the order of the entries is needed:
the span goes from the first start to the last end, and only in an ordered index is that all of it.

This is the half of planning that readers of blocks need, and it leaves out where one read ends and the next
begins: whatever the limits are, the pieces together are the entries. That is why what is delivered does not
depend on the limits, and why a proof about delivery cites nothing else about plans. The other half is
`Proofs/Reading/ExactPlan`.

Copies have the bytes that the data file has, however far it reaches; one that goes past the end has fewer bytes
than its entry says. So the lemmas need no condition on the file, and losing data is what a reader makes of it,
not a plan.
-/

set_option autoImplicit false

namespace BlockShuffle

/-! ## Pieces -/

namespace ReadPlan

theorem flatMap_cut {σ α : Type} (step : σ → α → Option σ) (fresh state : σ) (xs : List α) :
    ((cut step fresh state xs).flatMap fun piece => piece.1 :: piece.2) = xs := by
  induction xs generalizing state with
  | nil => rfl
  | cons x xs ih =>
    rw [cut]
    cases step state x with
    | none => simp only [List.flatMap_cons, List.cons_append, List.nil_append, ih]
    | some next =>
      have hrest := ih next
      -- The next piece takes the element in, unless there is none.
      cases hcut : cut step fresh next xs with
      | nil =>
        rw [hcut] at hrest
        simp only [hcut]
        simpa using hrest
      | cons piece pieces =>
        rw [hcut] at hrest
        simp only [hcut]
        simpa using hrest

/-- The pieces that are read at once, each by its first entry and the rest. -/
def pieces (byteLimit entryLimit : Nat) (entries : List IndexEntry) :
    List (IndexEntry × List IndexEntry) :=
  (groups entryLimit entries).flatMap fun group => batches byteLimit (group.1 :: group.2)

theorem flatMap_pieces (byteLimit entryLimit : Nat) (entries : List IndexEntry) :
    ((pieces byteLimit entryLimit entries).flatMap fun piece => piece.1 :: piece.2) = entries := by
  rw [pieces, List.flatMap_assoc]
  have hgroup : ∀ group : IndexEntry × List IndexEntry,
      ((batches byteLimit (group.1 :: group.2)).flatMap fun piece => piece.1 :: piece.2) =
        group.1 :: group.2 := by
    intro group
    rw [batches]
    apply flatMap_cut
  simp only [hgroup]
  rw [groups]
  apply flatMap_cut

/-! ## Order -/

/-- One entry ends where the other starts, or in front of it. -/
def Before (entry later : IndexEntry) : Prop := entry.stop ≤ later.offset.toNat

theorem checkOrdered_cons_of_passes {previousEnd : Nat} {entry : IndexEntry} (hstop : entry.stop < UInt64.size)
    (hstart : previousEnd ≤ entry.offset.toNat) (rest : List IndexEntry) :
    checkOrdered previousEnd (entry :: rest) = checkOrdered entry.stop rest := by
  rw [checkOrdered, if_neg (Nat.not_le.mpr hstop), if_neg (Nat.not_lt.mpr hstart)]

theorem checkOrdered_cons_eq_ok_iff {previousEnd : Nat} {entry : IndexEntry} {rest : List IndexEntry} :
    checkOrdered previousEnd (entry :: rest) = .ok () ↔
      entry.stop < UInt64.size ∧ previousEnd ≤ entry.offset.toNat ∧ checkOrdered entry.stop rest = .ok () := by
  constructor
  · intro h
    rw [checkOrdered] at h
    split_ifs at h with hfar hover
    exact ⟨Nat.not_le.mp hfar, Nat.not_lt.mp hover, h⟩
  · rintro ⟨hstop, hstart, hrest⟩
    rw [checkOrdered_cons_of_passes hstop hstart, hrest]

theorem checkOrdered_eq_ok_iff {previousEnd : Nat} {entries : List IndexEntry} :
    checkOrdered previousEnd entries = .ok () ↔
      (∀ entry ∈ entries, entry.stop < UInt64.size) ∧
      (∀ entry ∈ entries, previousEnd ≤ entry.offset.toNat) ∧ entries.Pairwise Before := by
  induction entries generalizing previousEnd with
  | nil => simp [checkOrdered]
  | cons entry entries ih =>
    -- Checking looks back at one entry only. Those further on are behind it too, as no entry ends before it starts.
    rw [checkOrdered_cons_eq_ok_iff, ih]
    have hgrow : entry.offset.toNat ≤ entry.stop := Nat.le_add_right _ _
    simp only [List.forall_mem_cons, List.pairwise_cons, Before]
    constructor
    · rintro ⟨hnear, hbehind, hstop, hstart, hrest⟩
      refine ⟨⟨hnear, hstop⟩, ⟨hbehind, fun later hl => ?_⟩, hstart, hrest⟩
      have := hstart later hl
      omega
    · rintro ⟨⟨hnear, hstop⟩, ⟨hbehind, -⟩, hstart, hrest⟩
      exact ⟨hnear, hbehind, hstop, hstart, hrest⟩

/-- **What a plan is.** Planning fails on an index that is out of order; otherwise there is one read for
each piece. -/
theorem ofEntries_eq_ok_iff {entries : List IndexEntry} {byteLimit entryLimit : Nat}
    {reads : List RangedRead} :
    ofEntries entries byteLimit entryLimit = .ok reads ↔
      checkOrdered 0 entries = .ok () ∧
      reads = (pieces byteLimit entryLimit entries).map fun piece =>
        RangedRead.ofBatch piece.1 piece.2 := by
  rw [ofEntries, pieces, List.map_flatMap]
  cases hcheck : checkOrdered 0 entries with
  | error fault =>
    constructor
    · intro h
      cases h
    · rintro ⟨h, -⟩
      cases h
  | ok _ =>
    constructor
    · intro h
      cases h
      exact ⟨rfl, rfl⟩
    · rintro ⟨-, rfl⟩
      rfl

end ReadPlan

/-! ## Copies -/

/-- One copy of a block: what is said about it, and its bytes. -/
structure BlockCopy where
  id : BlockId
  task : UInt64
  length : Nat
  uncompressedLength : UInt32
  crc : UInt32
  payload : Bytes
deriving DecidableEq, Repr

namespace BlockCopy

/-- What an index entry says, and the bytes of the data file that it points at. -/
def ofEntry (data : Bytes) (entry : IndexEntry) : BlockCopy where
  id := entry.id
  task := entry.task
  length := entry.length.toNat
  uncompressedLength := entry.uncompressedLength
  crc := entry.crc
  payload := (data.drop entry.offset.toNat).take entry.length.toNat

/-- What a batch says of a block it lists, and the bytes of its buffer. -/
def ofSlice (buffer : Bytes) (slice : BlockSlice) : BlockCopy where
  id := slice.id
  task := slice.task
  length := slice.length
  uncompressedLength := slice.uncompressedLength
  crc := slice.crc
  payload := (buffer.drop slice.offset).take slice.length

variable (buffer : Bytes) (slice : BlockSlice)

@[simp] theorem id_ofSlice : (ofSlice buffer slice).id = slice.id := rfl

@[simp] theorem task_ofSlice : (ofSlice buffer slice).task = slice.task := rfl

@[simp] theorem length_ofSlice : (ofSlice buffer slice).length = slice.length := rfl

end BlockCopy

namespace RangedRead

/-- The bytes that a read of a data file answers. -/
def bytesOf (read : RangedRead) (data : Bytes) : Bytes := (data.drop read.offset).take read.length

variable {first : IndexEntry} {rest : List IndexEntry}

theorem bounds_ofBatch (h : (first :: rest).Pairwise ReadPlan.Before) {entry : IndexEntry}
    (he : entry ∈ first :: rest) :
    first.offset.toNat ≤ entry.offset.toNat ∧
      entry.stop ≤ ((first :: rest).getLast (List.cons_ne_nil first rest)).stop := by
  constructor
  · rcases List.mem_cons.mp he with rfl | he
    · exact Nat.le_refl _
    · have hbefore := (List.pairwise_cons.mp h).1 entry he
      exact Nat.le_trans (Nat.le_add_right _ _) hbefore
  · -- The last entry is the entry itself or behind it.
    have hsplit := List.dropLast_append_getLast (List.cons_ne_nil first rest)
    rw [← hsplit, List.pairwise_append] at h
    rw [← hsplit, List.mem_append, List.mem_singleton] at he
    rcases he with he | rfl
    · have hbefore := h.2.2 entry he _ (List.mem_singleton.mpr rfl)
      exact Nat.le_trans hbefore (Nat.le_add_right _ _)
    · exact Nat.le_refl _

/-- **A piece reads as its entries do one by one**, if the data file holds its last one, and every block
lies in the bytes read. -/
theorem copies_ofBatch {data : Bytes} (h : (first :: rest).Pairwise ReadPlan.Before)
    (hdata : ∀ entry ∈ first :: rest, entry.stop ≤ data.length) :
    (ofBatch first rest).offset + (ofBatch first rest).length ≤ data.length ∧
    (∀ slice ∈ (ofBatch first rest).slices,
      slice.offset + slice.length ≤ ((ofBatch first rest).bytesOf data).length) ∧
    (ofBatch first rest).slices.map (BlockCopy.ofSlice ((ofBatch first rest).bytesOf data)) =
      (first :: rest).map (BlockCopy.ofEntry data) := by
  have hlast := hdata _ (List.getLast_mem (List.cons_ne_nil first rest))
  have hspan := (bounds_ofBatch h List.mem_cons_self).2
  have hgrow : first.offset.toNat ≤ first.stop := Nat.le_add_right _ _
  have hread : (ofBatch first rest).offset + (ofBatch first rest).length =
      ((first :: rest).getLast (List.cons_ne_nil first rest)).stop := by
    simp only [ofBatch]
    omega
  have hbuffer : ((ofBatch first rest).bytesOf data).length = (ofBatch first rest).length := by
    rw [bytesOf, List.length_take, List.length_drop]
    omega
  refine ⟨by omega, ?_, ?_⟩
  · intro slice hs
    obtain ⟨entry, he, rfl⟩ := List.mem_map.mp hs
    obtain ⟨hstart, hstop⟩ := bounds_ofBatch h he
    rw [hbuffer]
    simp only [BlockSlice.ofEntry, ofBatch, IndexEntry.stop] at *
    omega
  · simp only [ofBatch, List.map_map]
    apply List.map_congr_left
    intro entry he
    obtain ⟨hstart, hstop⟩ := bounds_ofBatch h he
    -- A slice of a slice is a slice of the whole.
    have hpayload : (((ofBatch first rest).bytesOf data).drop
        (entry.offset.toNat - first.offset.toNat)).take entry.length.toNat =
          (data.drop entry.offset.toNat).take entry.length.toNat := by
      rw [bytesOf, List.drop_take, List.drop_drop, List.take_take]
      simp only [ofBatch, IndexEntry.stop] at *
      rw [Nat.min_eq_left (by omega), Nat.add_sub_cancel' hstart]
    simp only [Function.comp_apply, BlockCopy.ofSlice, BlockCopy.ofEntry, BlockSlice.ofEntry]
    rw [← hpayload]
    rfl

end RangedRead

end BlockShuffle
