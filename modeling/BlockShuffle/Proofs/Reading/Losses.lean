import Mathlib
import BlockShuffle.Proofs.Reading.ExactPlan
import BlockShuffle.Proofs.Reading.Finding
import BlockShuffle.Proofs.Reading.Torn

/-!
# A shard whose files change after it was opened

Once a shard is open its plan is fixed, and of the storage a read looks at the data file only. Whether a handle
is there already makes no difference, since handles are of paths: what a read comes to is a function of the
bytes that the data file has at the time (`yields_read_answer`). All that a history of reads, closes and changes
can do to the shard is to open or drop that handle (`Same.after`), so the function is the same one behind every
history. What is left is to say what it answers (`RangedRead.Reported`): all of a batch, or that it is lost.

The history is any list of reads, with any number and any outcome, of closes, and of changes to the storage,
which may be anything: files may be damaged, cut short, replaced, deleted and put back. Nothing is assumed of
what was read before, and none of it is remembered. The handle would be the place to remember something; as
handles are of paths in a memory, a file that was replaced is read in its new form.

Bytes are compared by number only. That the bytes are those that were written is what checksums are for, and
they are compared by the client. What is here is that a reader does not make up for missing bytes, and does not
hand out a batch with part of its blocks: it is all of them or `DataLoss`, whatever the length that is left. A
disk whose file was replaced keeps what was opened, so for it the statement is not made.
-/

set_option autoImplicit false

namespace BlockShuffle

open Storage Program

/-- Bytes that a file in memory does not have are not there for good. -/
theorem Memory.settle_readAt (attempts : Nat) (reader : Reader) (offset length : Nat) (memory : Memory) :
    settle attempts (Memory.readAt reader offset length memory) =
      match memory.bytes? reader.path with
      | none => .error (.permanent (notFound reader.path))
      | some data =>
        if offset + length ≤ data.length then .ok ((data.drop offset).take length)
        else .error (.permanent (pastEnd reader.path offset length data.length)) := by
  rw [Memory.readAt, bytes?]
  cases memory.find? reader.path with
  | none => rfl
  | some contents =>
    rw [Option.map_some]
    dsimp only
    rw [Contents.slice?_eq_slice?_bytes, Bytes.slice?]
    split_ifs <;> rfl

namespace ShardReader

/-! ## One read -/

/-- The failure of a planned read whose bytes are not there. -/
def lost (shard : ShardReader) (planned : RangedRead) (cause : IoError) : Error :=
  .dataLoss (.missingBytes planned.length planned.offset shard.files.data shard.blockCount cause)

/-- What a read of this number comes to when the data file has these bytes, or is not there. -/
def answer (shard : ShardReader) (data? : Option Bytes) (index : Nat) : Except Error (Option Batch) :=
  match shard.reads[index]? with
  | none => .ok none
  | some planned =>
    match data? with
    | none => .error (shard.lost planned (Memory.notFound shard.files.data))
    | some data =>
      if planned.offset + planned.length ≤ data.length then .ok (some ⟨planned.bytesOf data, planned.slices⟩)
      else .error (shard.lost planned
        (Memory.pastEnd shard.files.data planned.offset planned.length data.length))

/-- The answer does not depend on the handle. -/
theorem answer_congr {shard other : ShardReader} (h : other.close = shard.close) : other.answer = shard.answer :=
  show other.close.answer = shard.close.answer by rw [h]

theorem yields_openData_memory {shard : ShardReader} (h : shard.Bound) (memory : Memory) :
    shard.openData.Yields Memory.handler (· = memory) fun opened =>
      (∃ reader, opened = .ok reader ∧ reader.path = shard.files.data) ∨
      memory.bytes? shard.files.data = none ∧ opened = .error (.permanent (Memory.notFound shard.files.data)) := by
  rw [openData]
  cases hdata : shard.data with
  | some reader => exact yields_done (Or.inl ⟨reader, rfl, h reader hdata⟩)
  | none =>
    have harchive := Memory.archive memory
    apply (yields_retried_settle harchive.waits shard.retryPolicy
      (harchive.answers (.openRead shard.files.data) trivial)).mono
    rintro _ rfl
    dsimp only [Memory.handler]
    cases hfind : memory.find? shard.files.data with
    | none => exact Or.inr ⟨Option.map_eq_none_iff.mpr hfind, rfl⟩
    | some contents => exact Or.inl ⟨_, rfl, rfl⟩

/-- **A read is answered from the data file as it is**, with or without a handle. -/
theorem yields_read_answer {shard : ShardReader} (h : shard.Bound) (index : Nat) (memory : Memory) :
    (shard.read index).Yields Memory.handler (· = memory) fun result =>
      result.1 = shard.answer (memory.bytes? shard.files.data) index ∧ result.2.Bound := by
  rw [read, answer]
  cases hplanned : shard.reads[index]? with
  | none => exact yields_done ⟨rfl, h⟩
  | some planned =>
    dsimp only
    apply (yields_openData_memory h memory).bind
    rintro _ (⟨reader, rfl, hpath⟩ | ⟨hnone, rfl⟩)
    · have harchive := Memory.archive memory
      have hbound : Bound { shard with data := some reader } := by
        rintro _ ⟨⟩
        exact hpath
      apply (yields_retried_settle harchive.waits shard.retryPolicy
        (harchive.answers (.readAt reader planned.offset planned.length) trivial)).bind
      rintro _ rfl
      dsimp only [Memory.handler]
      rw [Memory.settle_readAt, hpath]
      cases memory.bytes? shard.files.data with
      | none => exact yields_done ⟨rfl, hbound⟩
      | some data =>
        dsimp only
        split_ifs
        · exact yields_done ⟨rfl, hbound⟩
        · exact yields_done ⟨rfl, hbound⟩
    · rw [hnone]
      exact yields_done ⟨rfl, h⟩

/-! ## Histories -/

/-- What may happen to an open shard. -/
inductive Event where
  | read (index : Nat)
  | close
  /-- Files were changed, whichever and however, and this is what there is now. -/
  | change (memory : Memory)

/-- The shard and the storage after an event. -/
def Event.step (state : ShardReader × Memory) : Event → ShardReader × Memory
  | .read index =>
    let ((_, shard), memory) := (state.1.read index).run Memory.handler state.2
    (shard, memory)
  | .close => (state.1.close, state.2)
  | .change memory => (state.1, memory)

/-- The shard and the storage after one event after another. -/
def after (events : List Event) (state : ShardReader × Memory) : ShardReader × Memory :=
  events.foldl Event.step state

/-- A shard is what it was, but for a handle to its data file. -/
structure Same (shard other : ShardReader) : Prop where
  close : other.close = shard.close
  bound : other.Bound

theorem Same.step {shard : ShardReader} {state : ShardReader × Memory} (h : Same shard state.1) (event : Event) :
    Same shard (Event.step state event).1 := by
  cases event with
  | read index =>
    have hread := yields_read_answer h.bound index state.2 state.2 rfl
    exact ⟨(close_read state.1 index state.2).trans h.close, hread.1.2⟩
  | close => exact ⟨h.close, bound_of_unread rfl⟩
  | change memory => exact h

theorem Same.after {shard : ShardReader} (events : List Event) :
    ∀ {state : ShardReader × Memory}, Same shard state.1 → Same shard (after events state).1 := by
  induction events with
  | nil => exact id
  | cons event events ih => exact fun h => ih (h.step event)

/-- **A read is answered alike behind every history**: all that counts is the data file as it is now. -/
theorem read_after {shard : ShardReader} (hunread : shard.data = none) (events : List Event) (index : Nat)
    (memory : Memory) :
    let now := after events (shard, memory)
    ((now.1.read index).run Memory.handler now.2).1.1 = shard.answer (now.2.bytes? shard.files.data) index := by
  intro now
  have hsame : Same shard now.1 := Same.after events ⟨rfl, bound_of_unread hunread⟩
  have hfiles : now.1.files = shard.files := show now.1.close.files = shard.close.files by rw [hsame.close]
  rw [(yields_read_answer hsame.bound index now.2 now.2 rfl).1.1, answer_congr hsame.close, hfiles]

/-! ## The plan -/

/-- A shard as it is opened: nothing was read from it yet, and a read is planned for each piece of its index. -/
structure Planned (files : ShardFiles) (entries : List IndexEntry) (pieces : List (List IndexEntry))
    (shard : ShardReader) : Prop where
  files : shard.files = files
  unread : shard.data = none
  blockCount : shard.blockCount = entries.length
  whole : pieces.flatten = entries
  covers : List.Forall₂ RangedRead.Covers shard.reads.toList pieces
  ordered : ∀ piece ∈ pieces, piece.Pairwise ReadPlan.Before

/-- A shard that opens is planned from the index that was there. -/
theorem exists_planned {files : ShardFiles} {entryLimit byteLimit : Nat} {policy : RetryPolicy} {start : Memory}
    {shard : ShardReader}
    (h : ((ShardReader.open files entryLimit byteLimit policy).run Memory.handler start).1 = .ok (some shard)) :
    ∃ pieces, shard.Planned files (indexEntries start.bytes? files.index) pieces := by
  obtain ⟨found, hopen, hentries, -⟩ := exists_found (Memory.archive start) policy files
  have houtcome := (hopen entryLimit byteLimit start rfl).1
  rw [h] at houtcome
  rcases found with error | _ | entries
  · cases houtcome
  · cases houtcome
  obtain ⟨reads, hplan, rfl⟩ := ofEntries?_eq_some_iff.mp (Except.ok.inj houtcome.symm)
  rw [← hentries entries rfl]
  obtain ⟨hchecked, hreads⟩ := ReadPlan.ofEntries_eq_ok_iff.mp hplan
  have horder := ReadPlan.checkOrdered_eq_ok_iff_inOrder.mp hchecked
  have hwhole : (ReadPlan.batching byteLimit entryLimit entries).flatten.flatten = entries := by
    rw [List.flatten_flatten]
    exact (ReadPlan.batched_batching byteLimit entryLimit entries).grouped.flatten
  refine ⟨_, rfl, rfl, rfl, hwhole, (ReadPlan.forall₂_covers_iff horder byteLimit entryLimit).mpr hreads, ?_⟩
  intro piece hpiece
  exact horder.pairwise.sublist (hwhole ▸ List.sublist_flatten_of_mem hpiece)

end ShardReader

namespace RangedRead

/-- **A read that the data file holds has the block of each of its entries.** -/
theorem Covers.copies_eq {planned : RangedRead} {piece : List IndexEntry} (h : planned.Covers piece)
    (hordered : piece.Pairwise ReadPlan.Before) {data : Bytes}
    (hdata : planned.offset + planned.length ≤ data.length) :
    Batch.copies ⟨planned.bytesOf data, planned.slices⟩ = piece.map (BlockCopy.ofEntry data) := by
  cases piece with
  | nil => cases h.start
  | cons first rest =>
    obtain rfl := (covers_iff hordered).mp h
    refine (copies_ofBatch hordered fun entry he => ?_).2.2
    have hfirst := (bounds_ofBatch hordered List.mem_cons_self).2
    have hentry := (bounds_ofBatch hordered he).2
    have hgrow : first.offset.toNat ≤ first.stop := Nat.le_add_right _ _
    dsimp only [ofBatch] at hdata
    omega

/-- What the planned read of a piece of an index is answered, by what there is of the data file: its bytes, with
each block where its entry says, if they are all there; otherwise that they are lost. -/
structure Reported (planned : RangedRead) (piece : List IndexEntry) (lost : IoError → Error) (path : Path)
    (answer : Option Bytes → Except Error (Option Batch)) : Prop where
  held : ∀ data : Bytes, planned.offset + planned.length ≤ data.length →
    answer (some data) = .ok (some ⟨(data.drop planned.offset).take planned.length, planned.slices⟩)
  blocks : ∀ data : Bytes, planned.offset + planned.length ≤ data.length →
    Batch.copies ⟨(data.drop planned.offset).take planned.length, planned.slices⟩ = piece.map (BlockCopy.ofEntry data)
  cut : ∀ data : Bytes, data.length < planned.offset + planned.length →
    answer (some data) = .error (lost (Memory.pastEnd path planned.offset planned.length data.length))
  gone : answer none = .error (lost (Memory.notFound path))

end RangedRead

namespace ShardReader

theorem Planned.reported {files : ShardFiles} {entries piece : List IndexEntry} {pieces : List (List IndexEntry)}
    {shard : ShardReader} (h : shard.Planned files entries pieces) {index : Nat} {planned : RangedRead}
    (hplanned : shard.reads[index]? = some planned) (hpiece : pieces[index]? = some piece) :
    planned.Reported piece
      (fun cause => .dataLoss (.missingBytes planned.length planned.offset files.data entries.length cause))
      files.data (shard.answer · index) := by
  have hordered := h.ordered piece (List.mem_of_getElem? hpiece)
  have hcovers : planned.Covers piece := by
    have hread := hplanned
    rw [← Array.getElem?_toList] at hread
    obtain ⟨hi, rfl⟩ := List.getElem?_eq_some_iff.mp hread
    obtain ⟨hi', rfl⟩ := List.getElem?_eq_some_iff.mp hpiece
    exact h.covers.get hi hi'
  rw [← h.files, ← h.blockCount]
  constructor
  · intro data hdata
    rw [answer, hplanned]
    dsimp only
    rw [if_pos hdata, RangedRead.bytesOf]
  · intro data hdata
    exact hcovers.copies_eq hordered hdata
  · intro data hdata
    rw [answer, hplanned]
    dsimp only
    rw [if_neg (Nat.not_le.mpr hdata), lost]
  · rw [answer, hplanned]
    rfl

/-- **Lost data is reported, never shortened.** Behind every history of reads, closes and changes of files, a
read is answered from the data file as it is then, and in one way: past the last of them there is nothing, a
batch that is all there is read whole, with the block of each of its index entries, and any other is lost. -/
theorem losses_reported {files : ShardFiles} {entryLimit byteLimit : Nat} {policy : RetryPolicy} {start : Memory}
    {shard : ShardReader}
    (hopen : ((ShardReader.open files entryLimit byteLimit policy).run Memory.handler start).1 = .ok (some shard)) :
    ∃ (pieces : List (List IndexEntry)) (answer : Option Bytes → Nat → Except Error (Option Batch)),
      pieces.flatten = indexEntries start.bytes? files.index ∧
      List.Forall₂ RangedRead.Covers shard.reads.toList pieces ∧
      (∀ (events : List Event) (index : Nat),
        let now := after events (shard, start)
        ((now.1.read index).run Memory.handler now.2).1.1 = answer (now.2.bytes? files.data) index) ∧
      (∀ data? index, shard.readCount ≤ index → answer data? index = .ok none) ∧
      ∀ (index : Nat) (planned : RangedRead) (piece : List IndexEntry),
        shard.reads[index]? = some planned → pieces[index]? = some piece →
        planned.Reported piece
          (fun cause => .dataLoss (.missingBytes planned.length planned.offset files.data pieces.flatten.length cause))
          files.data (answer · index) := by
  obtain ⟨pieces, hplanned⟩ := exists_planned hopen
  refine ⟨pieces, shard.answer, hplanned.whole, hplanned.covers, ?_, ?_, ?_⟩
  · intro events index
    rw [← hplanned.files]
    exact read_after hplanned.unread events index start
  · intro data? index hindex
    rw [answer, Array.getElem?_eq_none hindex]
  · intro index planned piece hread hpiece
    rw [hplanned.whole]
    exact hplanned.reported hread hpiece

/-! ## Two blocks, and only the first of them -/

/-- The pair of two blocks. -/
def twoPair : ShardFiles := ⟨"w", 0, .ofText "d/w_0.data", .ofText "d/w_0.index"⟩

/-- The entries of its index: blocks of one byte, one behind the other. -/
def twoEntries : List IndexEntry := [⟨1, 1, 0, ⟨0⟩, 0, 0⟩, ⟨1, 1, 0, ⟨1⟩, 0, 1⟩]

/-- The pair without its data file. -/
def twoIndex : Memory :=
  (Memory.mk []).insert twoPair.index ⟨.ofBytes (twoEntries.flatMap IndexEntry.encode), by decide⟩

/-- The pair. -/
def twoBlocks : Memory := twoIndex.insert twoPair.data ⟨.ofBytes [10, 20], by decide⟩

/-- The pair with its data file cut short. -/
def firstOfTwo : Memory := twoIndex.insert twoPair.data ⟨.ofBytes [10], by decide⟩

/-- The second block is cut off: the first is read, and the second is lost. Without the file both are. -/
theorem losses_reported_firstOfTwo :
    ∃ shard : ShardReader,
      ((ShardReader.open twoPair 1 1 (.fixed 0 0)).run Memory.handler twoBlocks).1 = .ok (some shard) ∧
      let cut := after [.read 1, .change firstOfTwo, .close] (shard, twoBlocks)
      let gone := after [.read 0, .change twoIndex] (shard, twoBlocks)
      ((cut.1.read 0).run Memory.handler cut.2).1.1 = .ok (some ⟨[10], [⟨0, 1, ⟨0⟩, 0, 0, 1⟩]⟩) ∧
      ((cut.1.read 1).run Memory.handler cut.2).1.1 =
        .error (.dataLoss (.missingBytes 1 1 twoPair.data 2 (Memory.pastEnd twoPair.data 1 1 1))) ∧
      ((cut.1.read 2).run Memory.handler cut.2).1.1 = .ok none ∧
      ((gone.1.read 0).run Memory.handler gone.2).1.1 =
        .error (.dataLoss (.missingBytes 1 0 twoPair.data 2 (Memory.notFound twoPair.data))) := by
  have hfacts : ((ShardReader.open twoPair 1 1 (.fixed 0 0)).run Memory.handler twoBlocks).1.toOption.join.any
      (fun shard => shard.reads.toList = [⟨0, 1, [⟨0, 1, ⟨0⟩, 0, 0, 1⟩]⟩, ⟨1, 1, [⟨0, 1, ⟨1⟩, 0, 0, 1⟩]⟩]) = true := by
    decide +kernel
  have hlisted : indexEntries twoBlocks.bytes? twoPair.index = twoEntries := by decide +kernel
  have hnone : twoIndex.bytes? twoPair.data = none := by decide +kernel
  have hdata : firstOfTwo.bytes? twoPair.data = some [10] := by
    rw [firstOfTwo, Memory.bytes?_insert_self]
    exact congrArg some (Packed.toBytes_ofBytes _)
  rcases hopen : (ShardReader.open twoPair 1 1 (.fixed 0 0)).run Memory.handler twoBlocks with ⟨error | _ | shard, s⟩
  · rw [hopen] at hfacts
    cases hfacts
  · rw [hopen] at hfacts
    cases hfacts
  rw [hopen] at hfacts
  have hreads : shard.reads.toList = [⟨0, 1, [⟨0, 1, ⟨0⟩, 0, 0, 1⟩]⟩, ⟨1, 1, [⟨0, 1, ⟨1⟩, 0, 0, 1⟩]⟩] :=
    of_decide_eq_true hfacts
  obtain ⟨pieces, answer, hwhole, hcovers, hanswers, hpast, hreported⟩ := losses_reported (congrArg Prod.fst hopen)
  rw [hwhole, hlisted] at hreported
  have hcount : pieces.length = shard.reads.toList.length := hcovers.length_eq.symm
  rw [hreads] at hcount
  have hfirst := hreported 0 _ _ (by rw [← Array.getElem?_toList, hreads]; rfl)
    (List.getElem?_eq_getElem (hcount ▸ Nat.zero_lt_two))
  have hsecond := hreported 1 _ _ (by rw [← Array.getElem?_toList, hreads]; rfl)
    (List.getElem?_eq_getElem (hcount ▸ Nat.one_lt_two))
  have hcut (index : Nat) := hanswers [.read 1, .change firstOfTwo, .close] index
  have hgone (index : Nat) := hanswers [.read 0, .change twoIndex] index
  change ∀ index, _ = answer (firstOfTwo.bytes? twoPair.data) index at hcut
  change ∀ index, _ = answer (twoIndex.bytes? twoPair.data) index at hgone
  rw [hdata] at hcut
  rw [hnone] at hgone
  refine ⟨shard, rfl, ?_, ?_, ?_, ?_⟩
  · exact (hcut 0).trans (hfirst.held [10] (by decide))
  · exact (hcut 1).trans (hsecond.cut [10] (by decide))
  · exact (hcut 2).trans (hpast _ 2 (by rw [readCount, ← Array.length_toList, hreads]; decide))
  · exact (hgone 0).trans hfirst.gone

end ShardReader

end BlockShuffle
