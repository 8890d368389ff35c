import Mathlib
import BlockShuffle.Proofs.Reading.Discovery
import BlockShuffle.Proofs.Reading.Feeding
import BlockShuffle.Proofs.Writing.Session

/-!
# Reading a batch that joined a pair somebody left behind

A writer takes a pair for usable if its index ends with a whole entry. A reader judges the whole index: the
entries of whoever had the pair before, and behind them those of the batch, laid out from where the data file
ended. `written_readable_iff` says when both agree. The old entries have to be in order among themselves, and
they have to end where the new payloads start.

The second is what a writer does not look at. Where a data file was deleted or cut off and its index was kept, a
batch is written behind entries that point further than the file reaches, its own entries seem to go backwards,
and the reader passes the pair over with all that is in it (`batch_not_found_behind_lost_data`).

The condition is exact, so it says for each pair somebody may have left what becomes of a batch that joins it.
Where a shard is new all pairs are backed, and the condition holds by itself. That an acknowledged batch can be
lost to every reader is a defect of choosing pairs by the size of their index alone, and the counterexample is
as small as that allows: one entry, and no data file.

Only the batch that was just written is followed. What later batches do to the pair, and whether the blocks of
the earlier writer can still be read, comes down to the same condition for the entries that there are then.
-/

set_option autoImplicit false

namespace BlockShuffle

open Storage Program

/-! ## Entries of two origins -/

/-- Old entries can be followed by a batch whose payloads start at an offset. -/
def Joinable (old : List IndexEntry) (offset : Nat) (blocks : List Block) : Prop :=
  ReadPlan.checkOrdered 0 old = .ok () ∧ (blocks ≠ [] → ∀ entry ∈ old, entry.stop ≤ offset)

theorem checkOrdered_append_layOut {old : List IndexEntry} {front : Bytes} {blocks : List Block}
    (hfits : ∀ block ∈ blocks, Fits block) (hsize : (front ++ payloads blocks).length < UInt64.size) :
    ReadPlan.checkOrdered 0 (old ++ layOut front.length blocks) = .ok () ↔
      Joinable old front.length blocks := by
  obtain ⟨hbacks, hstarts, hpairwise⟩ := backs_layOut hfits hsize
  have hstops : ∀ entry ∈ layOut front.length blocks, entry.stop < UInt64.size := by
    intro entry he
    obtain ⟨block, -, hb⟩ := (exists_backs_of_forall₂ hbacks).1 entry he
    exact Nat.lt_of_le_of_lt hb.stop_le hsize
  rw [Joinable, ReadPlan.checkOrdered_eq_ok_iff, ReadPlan.checkOrdered_eq_ok_iff, List.pairwise_append,
    List.forall_mem_append]
  constructor
  · rintro ⟨⟨hold, -⟩, -, hordered, -, hbefore⟩
    refine ⟨⟨hold, fun _ _ => Nat.zero_le _, hordered⟩, fun hne entry he => ?_⟩
    -- The first entry of the batch starts where the data file ended.
    obtain ⟨block, rest, rfl⟩ := List.exists_cons_of_ne_nil hne
    have hfirst := hbefore entry he _ List.mem_cons_self
    have hoffset : (UInt64.ofNat front.length).toNat = front.length := by
      apply UInt64.toNat_ofNat_of_lt
      rw [List.length_append] at hsize
      omega
    rw [ReadPlan.Before] at hfirst
    simp only [OpenPair.entryAt, hoffset] at hfirst
    exact hfirst
  · rintro ⟨⟨hold, -, hordered⟩, hinside⟩
    refine ⟨⟨hold, hstops⟩, fun _ _ => Nat.zero_le _, hordered, hpairwise, fun entry he later hl => ?_⟩
    have hne : blocks ≠ [] := by
      rintro rfl
      cases hl
    exact Nat.le_trans (hinside hne entry he) (hstarts later hl)

theorem map_ofEntry_layOut {front : Bytes} {blocks : List Block} (hfits : ∀ block ∈ blocks, Fits block)
    (hsize : (front ++ payloads blocks).length < UInt64.size) :
    (layOut front.length blocks).map (BlockCopy.ofEntry (front ++ payloads blocks)) =
      blocks.map BlockCopy.ofBlock := by
  rw [← List.forall₂_eq_eq_eq, List.forall₂_map_left_iff, List.forall₂_map_right_iff]
  exact (backs_layOut hfits hsize).1.imp fun _ _ hbacks => hbacks.ofEntry_eq

theorem BlockCopy.ofEntry_append {data : Bytes} {entry : IndexEntry} (h : entry.stop ≤ data.length)
    (more : Bytes) : ofEntry (data ++ more) entry = ofEntry data entry := by
  have hstop : entry.offset.toNat + entry.length.toNat ≤ data.length := h
  have hpayload : ((data ++ more).drop entry.offset.toNat).take entry.length.toNat =
      (data.drop entry.offset.toNat).take entry.length.toNat := by
    rw [List.drop_append_of_le_length (by omega),
      List.take_append_of_le_length (by rw [List.length_drop]; omega)]
  rw [ofEntry, ofEntry, hpayload]

/-! ## The pair that a batch joins -/

/-- Each file of the shard has the bytes that it had; one that is missing has none. -/
def SameBytes (files : UInt32 → ShardFiles) (start memory : Memory) : Prop :=
  ∀ n, (memory.bytes? (files n).data).getD [] = (start.bytes? (files n).data).getD [] ∧
    (memory.bytes? (files n).index).getD [] = (start.bytes? (files n).index).getD []

namespace ShardWriter

variable {files : UInt32 → ShardFiles} {blocks : List Block} {start : Memory}

/-- Of the memory behind the opening of a pair nothing needs to be known. -/
theorem withstands_of_opens {opening : Memory → Prop} (h : AllowsOpening files opening) :
    Withstands files blocks opening fun _ => True :=
  ⟨h, fun _ _ => trivial, by simp [AllowsData], by simp [AllowsEntries]⟩

/-- **Until its pair is open, a write changes no byte.** -/
theorem opens_sameBytes : AllowsOpening files (SameBytes files start) := by
  refine fun n memory h => ⟨fun m => ?_, fun m => ?_⟩ <;>
    rw [Memory.bytes?_openAppend, Memory.bytes?_openAppend] <;> exact h m

variable {config : WriteConfig} {range : PartitionRange} {shard : String} {created writer after : ShardWriter}
  {requests : List Request} {answers : List (Except Error Unit)} {first state last : Unreliable}

/-- Whatever was there and whatever was asked, a batch that was written has joined a pair as it was then. -/
theorem exists_joins_of_write (hcreate : create config range shard = .ok created)
    (hserve : (serve requests created).run Unreliable.handler first = ((answers, writer), state))
    (hwrite : (writer.write blocks).run Unreliable.handler state = ((.ok (), after), last)) :
    (∀ block ∈ blocks, Fits block) ∧ ∃ n, after.currentFiles = created.filesOf n ∧
      ∃ front index, front = (state.memory.bytes? (created.filesOf n).data).getD [] ∧
        index = (state.memory.bytes? (created.filesOf n).index).getD [] ∧
        index.length % IndexEntry.size = 0 ∧ (front ++ payloads blocks).length < UInt64.size ∧
        last.memory.bytes? (created.filesOf n).data = some (front ++ payloads blocks) ∧
        last.memory.bytes? (created.filesOf n).index =
          some (index ++ IndexEntry.encodeAll (layOut front.length blocks)) := by
  obtain ⟨hname, hnone⟩ := create_eq_ok hcreate
  have hapart : Apart created.filesOf := apart_filesOf hname
  have hany : ∀ request ∈ requests,
      Withstands created.filesOf request.blocks (fun _ => True) fun _ => True :=
    fun _ _ => withstands_of_opens fun _ _ _ => ⟨trivial, trivial⟩
  have hrun := ensures_serve hapart hany first ⟨trivial, hasOpen_of_pair_eq_none hnone⟩
  rw [hserve] at hrun
  obtain ⟨hsame, ⟨-, hopen⟩, -⟩ := hrun
  have hfiles : writer.filesOf = created.filesOf := hsame.filesOf_eq
  have hkept : Withstands writer.filesOf blocks (SameBytes writer.filesOf state.memory) fun _ => True :=
    withstands_of_opens opens_sameBytes
  have hwritten := ensures_write (hfiles ▸ hapart) hkept state ⟨fun n => ⟨rfl, rfl⟩, hopen⟩
  rw [hwrite] at hwritten
  obtain ⟨-, -, -, hwrote⟩ := hwritten
  obtain ⟨hfits, before, n, hbytes, hcurrent, front, index, hfront, hindex, hjoins⟩ := hwrote rfl
  obtain ⟨hdata, hentries⟩ := hbytes n
  rw [hfront] at hdata
  rw [hindex] at hentries
  rw [hfiles] at hcurrent hdata hentries hjoins
  exact ⟨hfits, n, hcurrent, front, index, hdata, hentries, hjoins⟩

/-! ## Reading it back -/

open ShardReader in
/-- **A batch that was written can be read if the pair it joined was in order and ended inside its data
file**, and not otherwise. Take a writer that was asked anything before, on a storage that held anything, and a
write that it reports as done. A reader of the writer's current files then finds the pair in exactly that case,
and unless the batch was empty, reading all of it yields what the pair held and behind it the batch, block by
block as it was handed over. In any other case the reader takes the pair for one that is not there. -/
theorem written_readable_iff (hcreate : create config range shard = .ok created)
    (hserve : (serve requests created).run Unreliable.handler first = ((answers, writer), state))
    (hwrite : (writer.write blocks).run Unreliable.handler state = ((.ok (), after), last))
    (settings : ReadConfig) :
    ∃ n, after.currentFiles = created.filesOf n ∧
      ∃ front old, front = (state.memory.bytes? (created.filesOf n).data).getD [] ∧
        old = entriesOf (state.memory.bytes? (created.filesOf n).index) ∧
        ∃ found, (ShardReader.open after.currentFiles settings.entryLimit settings.byteLimit
            settings.retry).run Memory.handler last.memory = (.ok found, last.memory) ∧
          (found.isSome ↔ ReadPlan.checkOrdered 0 old = .ok () ∧
            (blocks ≠ [] → ∀ entry ∈ old, entry.stop ≤ front.length)) ∧
          ∀ reader, found = some reader → blocks ≠ [] → ∃ batches : List Batch,
            ((readEach (List.range reader.readCount) reader).run Memory.handler last.memory).1.1 =
              batches.map (fun batch => .ok (some batch)) ∧
            batches.flatMap Batch.copies =
              old.map (BlockCopy.ofEntry front) ++ blocks.map BlockCopy.ofBlock := by
  obtain ⟨hfits, n, hcurrent, front, index, hfront, hindex, hwhole, hsize, hdata, hentries⟩ :=
    exists_joins_of_write hcreate hserve hwrite
  refine ⟨n, hcurrent, front, entriesOf (some index), hfront, ?_, ?_⟩
  · rw [entriesOf_some, hindex]
    rfl
  rw [hcurrent]
  obtain ⟨longer, hlonger, hbytes⟩ := Option.map_eq_some_iff.mp hdata
  obtain ⟨index', hindex', -⟩ := Option.map_eq_some_iff.mp hentries
  -- What the reader finds in the index are the old entries and those of the batch.
  have hlisted : indexEntries last.memory.bytes? (created.filesOf n).index =
      entriesOf (some index) ++ layOut front.length blocks := by
    rw [← entriesOf_append hwhole, ← hentries]
    rfl
  obtain ⟨hopen, hsame⟩ := Memory.yields_openShard hindex' _ rfl
  refine ⟨_, Prod.ext hopen hsame, ?_, fun reader hreader hne => ?_⟩
  · rw [Memory.isSome_shard? hlonger, hlisted]
    exact checkOrdered_append_layOut hfits hsize
  obtain ⟨hfiles, hopened⟩ := Memory.shard?_eq_some hreader
  obtain ⟨hordered, -⟩ := ReadPlan.ofEntries_eq_ok_iff.mp hopened.planned
  rw [hfiles, hlisted, checkOrdered_append_layOut hfits hsize] at hordered
  have hinside : ∀ entry ∈ entriesOf (some index), entry.stop ≤ front.length := hordered.2 hne
  have hholds : HoldsEntries last.memory.bytes? reader := by
    intro entry he
    rw [hfiles] at he ⊢
    rw [hlisted, List.mem_append] at he
    refine ⟨_, hdata, ?_⟩
    rcases he with he | he
    · have := hinside entry he
      rw [List.length_append]
      omega
    · obtain ⟨block, -, hbacks⟩ := (exists_backs_of_forall₂ (backs_layOut hfits hsize).1).1 entry he
      exact hbacks.stop_le
  obtain ⟨-, hcopies⟩ := copies_of_openedFrom hopened hholds
  obtain ⟨hanswers, -⟩ := yields_readEach (Memory.serves_memory last.memory).offers
    (ready_of_openedFrom hopened hholds) _ rfl
  refine ⟨batchesOf last.memory.bytes? reader, ?_, ?_⟩
  · rw [hanswers, ← length_batchesOf last.memory.bytes? reader]
    apply List.ext_getElem (by simp)
    intro position hposition _
    simp only [List.length_map, List.length_range] at hposition
    simp [List.getElem?_eq_getElem hposition]
  · rw [hcopies, indexCopies, hfiles, hlisted, hdata, Option.getD_some, List.map_append,
      map_ofEntry_layOut hfits hsize, List.append_cancel_right_eq]
    exact List.map_congr_left fun entry he => BlockCopy.ofEntry_append (hinside entry he) _

/-! ## A pair with its data file, and without -/

/-- The index of a pair that held one block of five bytes. -/
def indexLeft : Memory :=
  (Memory.mk []).insert (writerOfNew.filesOf 0).index
    ⟨.ofBytes (IndexEntry.encode ⟨5, 5, 0, ⟨0⟩, 0, 0⟩), by decide⟩

/-- The pair as it was. -/
def pairLeft : Memory := indexLeft.insert (writerOfNew.filesOf 0).data ⟨.ofBytes [5, 4, 3, 2, 1], by decide⟩

def readSettings : ReadConfig := { retry := .fixed 0 0 }

/-- Behind the pair as it was, a batch is read, and what was there before. -/
theorem written_readable_iff_pairLeft :
    let written := (writerOfNew.write [oneByte 1]).run Unreliable.handler ⟨pairLeft, fun _ => none⟩
    written.1.1 = .ok () ∧ ∃ reader batches,
      (ShardReader.open written.1.2.currentFiles readSettings.entryLimit readSettings.byteLimit
        readSettings.retry).run Memory.handler written.2.memory = (.ok (some reader), written.2.memory) ∧
      ((ShardReader.readEach (List.range (ShardReader.readCount reader)) reader).run Memory.handler
        written.2.memory).1.1 = List.map (fun batch => .ok (some batch)) batches ∧
      batches.flatMap Batch.copies = [⟨⟨0⟩, 0, 5, 5, 0, [5, 4, 3, 2, 1]⟩, .ofBlock (oneByte 1)] := by
  intro written
  have hok : written.1.1 = .ok () := by decide +kernel
  refine ⟨hok, ?_⟩
  have hcreate : create { base := .ofText "a", app := "app" } ⟨0, 0⟩ "w" = .ok writerOfNew := rfl
  have hserve : (serve [] writerOfNew).run Unreliable.handler ⟨pairLeft, fun _ => none⟩ =
      (([], writerOfNew), ⟨pairLeft, fun _ => none⟩) := rfl
  have hwrite : (writerOfNew.write [oneByte 1]).run Unreliable.handler ⟨pairLeft, fun _ => none⟩ =
      ((.ok (), written.1.2), written.2) := Prod.ext (Prod.ext hok rfl) rfl
  obtain ⟨n, hcurrent, front, old, rfl, rfl, found, hopen, hsome, hread⟩ :=
    written_readable_iff hcreate hserve hwrite readSettings
  have hzero : n = 0 := by
    have hnumber : written.1.2.currentFiles.number = 0 := by decide +kernel
    rw [hcurrent] at hnumber
    exact hnumber
  subst hzero
  obtain ⟨reader, rfl⟩ := Option.isSome_iff_exists.mp (hsome.mpr (by decide +kernel))
  obtain ⟨batches, hanswers, hcopies⟩ := hread reader rfl (by decide)
  refine ⟨reader, batches, hopen, hanswers, ?_⟩
  rw [hcopies]
  decide +kernel

/-- **A batch is written, and not found**: the data file is gone, and the index is not. -/
theorem batch_not_found_behind_lost_data :
    let written := (writerOfNew.write [oneByte 1]).run Unreliable.handler ⟨indexLeft, fun _ => none⟩
    written.1.1 = .ok () ∧ written.1.2.currentFiles = writerOfNew.filesOf 0 ∧
    ((ShardReader.open written.1.2.currentFiles readSettings.entryLimit readSettings.byteLimit
      readSettings.retry).run Memory.handler written.2.memory).1.map Option.isSome = .ok false := by
  decide +kernel

end ShardWriter

end BlockShuffle
