import Mathlib
import BlockShuffle.Proofs.Crc32
import BlockShuffle.Proofs.Delivery.Reading
import BlockShuffle.Proofs.Reading.ExactPlan

/-!
# A damaged block in a batch

A data file is not what was written: at least one byte of one block is another, and all that are lie among four
in a row (`LocalDamage`). Whatever a plan makes of the index, each of its reads comes back with blocks that are
as they were, and at most one that lies over a changed byte (`checked_of_planned`). That one does not have the
checksum of its entry any more.

So there are two things that can happen to a batch (`settleSlices_beside`). Where nobody looks at the payload of
the damaged block (`PassesOver`: it is not asked for, or it was delivered before), the batch settles as if
nothing had happened. Otherwise it breaks at that block.

Four bytes in a row are at most thirty-two bits, and that many a checksum of thirty-two bits always notices.
Damage that is spread further may go unnoticed, and then it is delivered; no statement says otherwise. Changed
checksums and changed entries are not considered, the index being the one that was written.

A changed byte of the damaged block is in another block only if the two overlap, and in an index that can be
planned they do not. That is why the plan's order matters to a statement about damage. Which read of a shard has
the damaged block is not said; all that is used is what the batch of that read looks like.
-/

set_option autoImplicit false

namespace BlockShuffle

/-! ## The damage -/

/-- A data file as it was when the checksums of an index were computed, and as it is found: of the payload of
one entry at least one byte is another, all such bytes are among four in a row, and nothing else changed. -/
structure LocalDamage (before after : Bytes) (entries : List IndexEntry) (block : IndexEntry) : Prop where
  listed : block ∈ entries
  inside : ∀ entry ∈ entries, entry.stop ≤ before.length
  checksums : ∀ entry ∈ entries, crc32 (BlockCopy.ofEntry before entry).payload = entry.crc
  length_eq : after.length = before.length
  changed : ∃ place, before.DifferAt after place
  confined : ∀ place, before.DifferAt after place → block.offset.toNat ≤ place ∧ place < block.stop
  near : ∃ start, ∀ place, before.DifferAt after place → start ≤ place ∧ place < start + 4

namespace LocalDamage

variable {before after : Bytes} {entries : List IndexEntry} {block : IndexEntry}

theorem getElem?_payload (data : Bytes) (entry : IndexEntry) (i : Nat) : (BlockCopy.ofEntry data entry).payload[i]? =
    if i < entry.length.toNat then data[entry.offset.toNat + i]? else none := by
  rw [BlockCopy.ofEntry, List.getElem?_take, List.getElem?_drop]

/-- A block that no changed byte lies in is as it was. -/
theorem payload_eq {entry : IndexEntry} (hclear : ∀ place, before.DifferAt after place →
      ¬(entry.offset.toNat ≤ place ∧ place < entry.stop)) :
    (BlockCopy.ofEntry after entry).payload = (BlockCopy.ofEntry before entry).payload := by
  refine List.ext_getElem? fun i => ?_
  rw [getElem?_payload, getElem?_payload]
  split_ifs with hi
  · by_contra hne
    refine hclear (entry.offset.toNat + i) (Ne.symm hne) ⟨Nat.le_add_right _ _, ?_⟩
    exact Nat.add_lt_add_left hi _
  · rfl

/-- **The damaged block is not the one that was checksummed.** -/
theorem crc32_ne (h : LocalDamage before after entries block) :
    crc32 (BlockCopy.ofEntry after block).payload ≠ block.crc := by
  obtain ⟨place, hplace⟩ := h.changed
  obtain ⟨start, hnear⟩ := h.near
  have hstop : block.stop = block.offset.toNat + block.length.toNat := rfl
  have hlength : (BlockCopy.ofEntry before block).payload.length = (BlockCopy.ofEntry after block).payload.length := by
    rw [BlockCopy.ofEntry, BlockCopy.ofEntry, List.length_take, List.length_take, List.length_drop,
      List.length_drop, h.length_eq]
  -- A place in the payload is a place in the file, counted from the start of the block.
  have hdiffer (i : Nat) : (BlockCopy.ofEntry before block).payload.DifferAt (BlockCopy.ofEntry after block).payload i ↔
      i < block.length.toNat ∧ before.DifferAt after (block.offset.toNat + i) := by
    unfold Bytes.DifferAt
    rw [getElem?_payload, getElem?_payload]
    split_ifs with hi <;> simp [hi]
  have hchanged : (BlockCopy.ofEntry before block).payload.DifferAt (BlockCopy.ofEntry after block).payload
      (place - block.offset.toNat) := by
    obtain ⟨hle, hlt⟩ := h.confined place hplace
    rw [hdiffer, Nat.add_sub_cancel' hle]
    exact ⟨by omega, hplace⟩
  have hlocal (i : Nat) (hi : (BlockCopy.ofEntry before block).payload.DifferAt
      (BlockCopy.ofEntry after block).payload i) :
      start - block.offset.toNat ≤ i ∧ i < start - block.offset.toNat + 4 := by
    have := hnear _ ((hdiffer i).mp hi).2
    omega
  rw [← h.checksums block h.listed]
  exact (crc32_ne_of_local hlength hchanged hlocal).symm

/-- In an index in order, a changed byte is in no other block. -/
theorem eq_of_covers (h : LocalDamage before after entries block) (horder : entries.Pairwise ReadPlan.Before)
    {entry : IndexEntry} (hentry : entry ∈ entries) {place : Nat} (hplace : before.DifferAt after place)
    (hcovers : entry.offset.toNat ≤ place ∧ place < entry.stop) : entry = block := by
  by_contra hne
  have : Std.Symm fun one other => ReadPlan.Before one other ∨ ReadPlan.Before other one := ⟨fun _ _ => Or.symm⟩
  have happart : entries.Pairwise fun one other => ReadPlan.Before one other ∨ ReadPlan.Before other one :=
    horder.imp Or.inl
  have hblock := h.confined place hplace
  rcases happart.forall hentry h.listed hne with hbefore | hbefore <;> rw [ReadPlan.Before] at hbefore <;> omega

end LocalDamage

/-! ## Planned blocks -/

/-- The block, as it is listed in a read, lies over a changed byte. -/
def RangedRead.Hits (before after : Bytes) (planned : RangedRead) (slice : BlockSlice) : Prop :=
  ∃ place, before.DifferAt after place ∧ planned.offset + slice.offset ≤ place ∧
    place < planned.offset + slice.offset + slice.length

section Planned

variable {entries : List IndexEntry} {byteLimit entryLimit : Nat} {reads : List RangedRead}
  {before after : Bytes} {block : IndexEntry}

/-- A listed block is an entry's, and its bytes are found in the read as they are in the file. -/
theorem exists_entry_of_planned (hplan : ReadPlan.ofEntries entries byteLimit entryLimit = .ok reads)
    {planned : RangedRead} (hread : planned ∈ reads) {slice : BlockSlice} (hslice : slice ∈ planned.slices) :
    ∃ entry ∈ entries, slice = BlockSlice.ofEntry planned.offset entry ∧ planned.offset ≤ entry.offset.toNat ∧
      ∀ data : Bytes, (∀ entry ∈ entries, entry.stop ≤ data.length) →
        (Packed.ofBytes (planned.bytesOf data)).slice? slice.offset slice.length =
          some (BlockCopy.ofEntry data entry).payload := by
  obtain ⟨hordered, rfl⟩ := ReadPlan.ofEntries_eq_ok_iff.mp hplan
  obtain ⟨piece, hpiece, rfl⟩ := List.mem_map.mp hread
  obtain ⟨entry, hentry, hofEntry⟩ := List.mem_map.mp hslice
  have hsub := ReadPlan.sublist_of_mem_pieces hpiece
  have hpair := (ReadPlan.checkOrdered_eq_ok_iff.mp hordered).2.2.sublist hsub
  refine ⟨entry, hsub.subset hentry, hofEntry.symm, (RangedRead.bounds_ofBatch hpair hentry).1, fun data hdata => ?_⟩
  obtain ⟨-, hinside, hcopies⟩ :=
    RangedRead.copies_ofBatch hpair fun entry he => hdata entry (hsub.subset he)
  have hcopy : BlockCopy.ofSlice ((RangedRead.ofBatch piece.1 piece.2).bytesOf data)
      (BlockSlice.ofEntry piece.1.offset.toNat entry) = BlockCopy.ofEntry data entry := by
    rw [RangedRead.ofBatch, List.map_map] at hcopies
    exact List.map_inj_left.mp hcopies entry hentry
  rw [hofEntry] at hcopy
  have hwhole : slice.offset + slice.length ≤
      (Batch.mk ((RangedRead.ofBatch piece.1 piece.2).bytesOf data) []).buffer.length := hinside _ hslice
  exact Reconciler.slice?_eq_some_iff.mpr ⟨hwhole, congrArg BlockCopy.payload hcopy⟩

/-- The damaged block is in some read. -/
theorem exists_hit_of_planned (hplan : ReadPlan.ofEntries entries byteLimit entryLimit = .ok reads)
    (h : LocalDamage before after entries block) :
    ∃ planned ∈ reads, ∃ slice ∈ planned.slices, planned.Hits before after slice := by
  obtain ⟨hordered, rfl⟩ := ReadPlan.ofEntries_eq_ok_iff.mp hplan
  have hlisted := h.listed
  rw [← ReadPlan.flatMap_pieces byteLimit entryLimit entries, List.mem_flatMap] at hlisted
  obtain ⟨piece, hpiece, hblock⟩ := hlisted
  have hpair := (ReadPlan.checkOrdered_eq_ok_iff.mp hordered).2.2.sublist (ReadPlan.sublist_of_mem_pieces hpiece)
  have hstart := (RangedRead.bounds_ofBatch hpair hblock).1
  obtain ⟨place, hplace⟩ := h.changed
  obtain ⟨hle, hlt⟩ := h.confined place hplace
  refine ⟨_, List.mem_map_of_mem hpiece, _, List.mem_map_of_mem hblock, place, hplace, ?_⟩
  simp only [RangedRead.ofBatch, BlockSlice.ofEntry, IndexEntry.stop] at hlt ⊢
  omega

/-- One listed block of a read in either version of the file. -/
structure BlockSlice.Checked (buffer buffer' : Packed) (block : IndexEntry) (hit : BlockSlice → Prop)
    (slice : BlockSlice) : Prop where
  /-- It was whole, -/
  whole : ∃ payload, buffer.slice? slice.offset slice.length = some payload ∧ crc32 payload = slice.crc
  /-- and where no changed byte lies in it, it still is. -/
  same : ¬hit slice → buffer'.slice? slice.offset slice.length = buffer.slice? slice.offset slice.length
  /-- Otherwise it is the damaged block, and does not have its checksum. -/
  damaged : hit slice → slice.id = block.id ∧ slice.task = block.task ∧ slice.crc = block.crc ∧
    ∃ payload, buffer'.slice? slice.offset slice.length = some payload ∧ crc32 payload ≠ slice.crc

/-- **What a planned read comes back with** from a damaged file. -/
theorem checked_of_planned (hplan : ReadPlan.ofEntries entries byteLimit entryLimit = .ok reads)
    (h : LocalDamage before after entries block) {planned : RangedRead} (hread : planned ∈ reads) :
    ∀ slice ∈ planned.slices, slice.Checked (Packed.ofBytes (planned.bytesOf before))
      (Packed.ofBytes (planned.bytesOf after)) block (planned.Hits before after) := by
  intro slice hslice
  obtain ⟨entry, hentry, rfl, hstart, hbytes⟩ := exists_entry_of_planned hplan hread hslice
  have hbefore := hbytes before h.inside
  have hafter := hbytes after (h.length_eq ▸ h.inside)
  have hcovers {place : Nat} : (planned.offset + (BlockSlice.ofEntry planned.offset entry).offset ≤ place ∧
      place < planned.offset + (BlockSlice.ofEntry planned.offset entry).offset +
        (BlockSlice.ofEntry planned.offset entry).length) ↔
      (entry.offset.toNat ≤ place ∧ place < entry.stop) := by
    simp only [BlockSlice.ofEntry, IndexEntry.stop]
    omega
  refine ⟨⟨_, hbefore, h.checksums entry hentry⟩, fun hclear => ?_, fun hhit => ?_⟩
  · rw [hbefore, hafter, LocalDamage.payload_eq]
    exact fun place hplace hin => hclear ⟨place, hplace, hcovers.mpr hin⟩
  · obtain ⟨place, hplace, hin⟩ := hhit
    have horder := (ReadPlan.checkOrdered_eq_ok_iff.mp (ReadPlan.ofEntries_eq_ok_iff.mp hplan).1).2.2
    cases h.eq_of_covers horder hentry hplace (hcovers.mp hin)
    exact ⟨rfl, rfl, rfl, _, hafter, h.crc32_ne⟩

end Planned

/-! ## Settling -/

namespace Reconciler

variable {state : Reconciler} {buffer buffer' : Packed} {block : IndexEntry} {hit : BlockSlice → Prop}
  {slice : BlockSlice} {slices lead : List BlockSlice}

/-- The id of a block that is listed behind others in a batch was delivered in front of it, in an earlier batch
or in this one. -/
def DeliveredBefore (state : Reconciler) (lead : List BlockSlice) (block : IndexEntry) : Prop :=
  block.id.raw ∈ state.processed ∨ ∃ other ∈ lead, other.id.raw = block.id.raw ∧ other.task ∈ state.tasks

/-- Nobody looks at the payload of such a block: it is not asked for, its attempt does not count, or its id was
delivered before. -/
def PassesOver (state : Reconciler) (lead : List BlockSlice) (block : IndexEntry) : Prop :=
  block.id.raw ∉ state.expected ∨ block.task ∉ state.tasks ∨ state.DeliveredBefore lead block

theorem passesOver_congr {other : Reconciler} (hexpected : other.expected = state.expected)
    (htasks : other.tasks = state.tasks) (hprocessed : ∀ id, id ∈ other.processed ↔ id ∈ state.processed) :
    other.PassesOver lead block ↔ state.PassesOver lead block := by
  rw [PassesOver, PassesOver, DeliveredBefore, DeliveredBefore, hexpected, htasks, hprocessed]

/-- The state behind a block that met this verdict. -/
def behind (state : Reconciler) (slice : BlockSlice) : Verdict → Reconciler
  | .unexpected => state.countUnexpected
  | .filtered => state.countFiltered slice
  | .duplicate => state.countDuplicate
  | .deliver => state.countDelivered slice
  | .fail _ => state

theorem checksum_behind (verdict : Verdict) : (state.behind slice verdict).checksum = state.checksum := by
  cases verdict <;> rfl

/-- Settling a block and the rest, said for all verdicts at once. -/
theorem settleSlices_cons {verdict : Verdict} (h : state.judge buffer slice = verdict)
    (hpass : ∀ error, verdict ≠ .fail error) : state.settleSlices buffer (slice :: slices) =
      let rest := (state.behind slice verdict).settleSlices buffer slices
      (rest.1.map fun delivered => if verdict = .deliver then slice :: delivered else delivered, rest.2) := by
  have hid (rest : Except Error (List BlockSlice)) : (rest.map fun delivered => delivered) = rest := by
    cases rest <;> rfl
  rw [settleSlices, h]
  cases verdict with
  | fail error => exact absurd rfl (hpass error)
  | deliver => rfl
  | unexpected | filtered | duplicate =>
    simp only [behind, reduceCtorEq, if_false, hid]

theorem passesOver_cons : state.PassesOver (slice :: lead) block ↔
    state.PassesOver lead block ∨ (slice.id.raw = block.id.raw ∧ slice.task ∈ state.tasks) := by
  simp only [PassesOver, DeliveredBefore, List.mem_cons, exists_eq_or_imp, or_assoc]
  rw [or_comm (a := slice.id.raw = block.id.raw ∧ slice.task ∈ state.tasks)]

/-- What a block did is one more reason to pass over the ones behind it. -/
theorem passesOver_behind (hpass : ∀ error, state.judge buffer slice ≠ .fail error) :
    (state.behind slice (state.judge buffer slice)).PassesOver lead block ↔
      state.PassesOver (slice :: lead) block := by
  rw [passesOver_cons]
  -- Unless the block is delivered, its id says nothing that the state does not.
  have hkept {other : Reconciler} (hexpected : other.expected = state.expected) (htasks : other.tasks = state.tasks)
      (hprocessed : other.processed = state.processed)
      (hknown : slice.id.raw = block.id.raw → slice.task ∈ state.tasks → state.PassesOver lead block) :
      other.PassesOver lead block ↔
        state.PassesOver lead block ∨ (slice.id.raw = block.id.raw ∧ slice.task ∈ state.tasks) := by
    rw [passesOver_congr hexpected htasks fun id => by rw [hprocessed]]
    exact ⟨Or.inl, fun h => h.elim id fun hsame => hknown hsame.1 hsame.2⟩
  cases hverdict : state.judge buffer slice with
  | unexpected =>
    refine hkept rfl rfl rfl fun hsame _ => Or.inl ?_
    rw [← hsame]
    exact judge_eq_unexpected_iff.mp hverdict
  | filtered => exact hkept rfl rfl rfl fun _ htask => absurd htask (judge_eq_filtered_iff.mp hverdict).2
  | duplicate =>
    refine hkept rfl rfl rfl fun hsame _ => Or.inr (Or.inr (Or.inl ?_))
    rw [← hsame]
    exact (judge_eq_duplicate_iff.mp hverdict).2.2
  | deliver =>
    have htask := (judge_eq_deliver_iff.mp hverdict).2.1
    simp only [PassesOver, DeliveredBefore, behind, countDelivered, IdSet.mem_insert_iff, htask, and_true, or_assoc]
    rw [eq_comm, or_left_comm (a := slice.id.raw = block.id.raw), or_comm (a := slice.id.raw = block.id.raw)]
  | fail error => exact absurd hverdict (hpass error)

/-- Where its bytes are the same, so is the verdict on a block. -/
theorem judge_congr {payload : Bytes} (h : buffer.slice? slice.offset slice.length = some payload)
    (hsame : buffer'.slice? slice.offset slice.length = buffer.slice? slice.offset slice.length) :
    state.judge buffer' slice = state.judge buffer slice := by
  rw [judge, judge, verify, verify, hsame, h]

/-- So it is where nobody looks at them. -/
theorem judge_eq_of_passesOver (hid : slice.id = block.id) (htask : slice.task = block.task)
    (h : state.PassesOver [] block) : state.judge buffer' slice = state.judge buffer slice := by
  rw [PassesOver, DeliveredBefore, ← hid, ← htask] at h
  by_cases hx : slice.id.raw ∈ state.expected
  · by_cases ht : slice.task ∈ state.tasks
    · have hp : slice.id.raw ∈ state.processed := by simpa [hx, ht] using h
      rw [judge_eq_duplicate_iff.mpr ⟨hx, ht, hp⟩, judge_eq_duplicate_iff.mpr ⟨hx, ht, hp⟩]
    · rw [judge_eq_filtered_iff.mpr ⟨hx, ht⟩, judge_eq_filtered_iff.mpr ⟨hx, ht⟩]
  · rw [judge_eq_unexpected_iff.mpr hx, judge_eq_unexpected_iff.mpr hx]

/-- A block that is not passed over and does not have its checksum fails. -/
theorem judge_eq_checksum {payload : Bytes} (h : ¬state.PassesOver [] block) (hid : slice.id = block.id)
    (htask : slice.task = block.task) (hchecksum : state.checksum = crc32)
    (hpayload : buffer.slice? slice.offset slice.length = some payload) (hcrc : crc32 payload ≠ slice.crc) :
    state.judge buffer slice = .fail (.checksum slice.id slice.crc (crc32 payload)) := by
  rw [PassesOver, DeliveredBefore, ← hid, ← htask] at h
  push Not at h
  rw [judge_eq_verify h.1 h.2.1 h.2.2.1, verify, hpayload]
  dsimp only
  rw [hchecksum, if_neg hcrc]

/-- A block that is whole does not fail. -/
theorem judge_ne_fail_of_whole {payload : Bytes} (hpayload : buffer.slice? slice.offset slice.length = some payload)
    (hcrc : state.checksum payload = slice.crc) (error : Error) : state.judge buffer slice ≠ .fail error := by
  rw [judge, verify, hpayload]
  dsimp only
  rw [if_pos hcrc]
  split_ifs <;> rintro ⟨⟩

/-- **A batch with a damaged block** settles as it would have, or breaks at that block. -/
theorem settleSlices_beside (h : ∀ slice ∈ slices, slice.Checked buffer buffer' block hit) :
    ∀ {state : Reconciler}, state.checksum = crc32 →
      ((∃ delivered final, state.settleSlices buffer slices = (.ok delivered, final) ∧
          state.settleSlices buffer' slices = (.ok delivered, final)) ∧
        ∀ lead slice rest, slices = lead ++ slice :: rest → hit slice → state.PassesOver lead block) ∨
      ((∃ lead slice rest, slices = lead ++ slice :: rest ∧ hit slice ∧ ¬state.PassesOver lead block) ∧
        ∃ actual final, state.settleSlices buffer' slices = (.error (.checksum block.id block.crc actual), final) ∧
          block.id.raw ∉ final.processed) := by
  induction slices with
  | nil =>
    intro state _
    refine Or.inl ⟨⟨[], state, rfl, rfl⟩, fun lead slice rest hsplit => ?_⟩
    exact absurd hsplit.symm (List.append_ne_nil_of_right_ne_nil _ (List.cons_ne_nil _ _))
  | cons slice slices ih =>
    intro state hchecksum
    obtain ⟨hslice, hslices⟩ := List.forall_mem_cons.mp h
    obtain ⟨payload, hpayload, hcrc⟩ := hslice.whole
    have hpass (error : Error) : state.judge buffer slice ≠ .fail error :=
      judge_ne_fail_of_whole hpayload (hchecksum ▸ hcrc) error
    by_cases hfails : hit slice ∧ ¬state.PassesOver [] block
    · -- The first block is the damaged one, and its payload is looked at.
      obtain ⟨hhit, hnot⟩ := hfails
      obtain ⟨hid, htask, hsameCrc, found, hfound, hwrong⟩ := hslice.damaged hhit
      refine Or.inr ⟨⟨[], slice, slices, rfl, hhit, hnot⟩, crc32 found, state, ?_, ?_⟩
      · rw [settleSlices, judge_eq_checksum hnot hid htask hchecksum hfound hwrong, hid, hsameCrc]
      · exact fun hprocessed => hnot (Or.inr (Or.inr (Or.inl hprocessed)))
    · have hsame : state.judge buffer' slice = state.judge buffer slice := by
        by_cases hhit : hit slice
        · obtain ⟨hid, htask, -, -⟩ := hslice.damaged hhit
          exact judge_eq_of_passesOver hid htask (not_not.mp fun hnot => hfails ⟨hhit, hnot⟩)
        · exact judge_congr hpayload (hslice.same hhit)
      have hnext : (state.behind slice (state.judge buffer slice)).checksum = crc32 :=
        (checksum_behind _).trans hchecksum
      have hwhole : state.settleSlices buffer (slice :: slices) = _ := settleSlices_cons rfl hpass
      have htorn : state.settleSlices buffer' (slice :: slices) = _ := settleSlices_cons hsame hpass
      rcases ih hslices hnext with ⟨⟨delivered, final, hrun, hrun'⟩, hover⟩ |
        ⟨⟨lead, other, rest, hsplit, hhit, hnot⟩, actual, final, hrun, hunprocessed⟩
      · rw [hrun] at hwhole
        rw [hrun'] at htorn
        refine Or.inl ⟨⟨_, final, hwhole, htorn⟩, fun lead other rest hsplit hhit => ?_⟩
        cases lead with
        | nil =>
          cases hsplit
          exact not_not.mp fun hnot => hfails ⟨hhit, hnot⟩
        | cons first lead =>
          cases hsplit
          exact (passesOver_behind hpass).mp (hover lead other rest rfl hhit)
      · rw [hrun] at htorn
        refine Or.inr ⟨⟨slice :: lead, other, rest, congrArg (slice :: ·) hsplit, hhit, fun hover => ?_⟩,
          actual, final, htorn, hunprocessed⟩
        exact hnot ((passesOver_behind hpass).mpr hover)

end Reconciler

end BlockShuffle
