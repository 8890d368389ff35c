import Mathlib
import BlockShuffle.Proofs.Reading.Feeding
import BlockShuffle.Proofs.Reading.Resuming
import BlockShuffle.Proofs.Storage.Archive

/-!
# What a partition answers on a storage that does not change

On a storage that looking at leaves as it is, what a planned read comes to is known before it is made, down to the
failure: it is what opening the data file and reading from it come to (`ShardReader.fetch`). Whether the file is open
already makes no difference, and neither does what was read before. So the answers of a partition are a list
(`PartitionReader.answers`), and a read answers what is in it under its number (`PartitionReader.yields_read_answers`).

On a disk that is the blocks that the data files have. A planned read is about a run of entries, and all of a shard's
reads are about all the entries of its index (`ShardReader.flatMap_copiesIn`).

Answers are errors as well as batches, and both are the same each time; a call that fails in a way that may pass
fails so at every attempt, and its error says that the retries were used up. With failures in the list, what a
reader does behind one can be stated too: it goes on, and the answers behind are those of the list.

The entries come in with the last part, for a disk, since that is where a verification is compared with a count
of entries. A read that is planned reaches behind the data file exactly if one of its entries does, so a batch
that is lost has a block that is lost.
-/

set_option autoImplicit false

namespace BlockShuffle

open Storage Program

variable {σ : Type} {handler : Handler σ} {s : σ} {files : Path → Option Bytes}

/-! ## Outcomes -/

section Outcomes

variable {α : Type} {attempts : Nat} {outcome : Except IoError α}

theorem settle_eq_ok_iff {value : α} : settle attempts outcome = .ok value ↔ outcome = .ok value := by
  cases outcome with
  | ok found => simp [settle]
  | error error =>
    rw [settle]
    split <;> simp

theorem toOption_settle : (settle attempts outcome).toOption = outcome.toOption := by
  cases outcome with
  | ok value => rfl
  | error error =>
    rw [settle]
    split <;> rfl

/-- What is missing or too short is so for good. -/
theorem settle_of_kind {cause : IoError} (h : cause.kind = .notFound ∨ cause.kind = .unexpectedEof) :
    settle attempts (.error cause : Except IoError α) = .error (.permanent cause) := by
  rw [settle, if_neg]
  rcases h with h | h <;> rw [h] <;> decide

end Outcomes

/-! ## Shards -/

namespace ShardReader

variable {shard other : ShardReader} {planned : RangedRead} {index : Nat}

/-- What a planned read comes to. -/
def fetch (handler : Handler σ) (s : σ) (shard : ShardReader) (planned : RangedRead) : Except Error Batch :=
  let attempts := shard.retryPolicy.maxRetries + 1
  match settle attempts (handler (.openRead shard.files.data) s).1 with
  | .error failure => .error (shard.readError planned failure)
  | .ok reader =>
    match settle attempts (handler (.readAt reader planned.offset planned.length) s).1 with
    | .error failure => .error (shard.readError planned failure)
    | .ok buffer => .ok ⟨buffer, planned.slices⟩

theorem fetch_eq_ok_iff {batch : Batch} : shard.fetch handler s planned = .ok batch ↔
    ∃ reader buffer, (handler (.openRead shard.files.data) s).1 = .ok reader ∧
      (handler (.readAt reader planned.offset planned.length) s).1 = .ok buffer ∧ batch = ⟨buffer, planned.slices⟩ := by
  rw [fetch]
  constructor
  · intro h
    split at h
    · cases h
    · rename_i reader hopen
      split at h
      · cases h
      · rename_i buffer hread
        cases h
        exact ⟨reader, buffer, settle_eq_ok_iff.mp hopen, settle_eq_ok_iff.mp hread, rfl⟩
  · rintro ⟨reader, buffer, hopen, hread, rfl⟩
    rw [settle_eq_ok_iff.mpr hopen]
    dsimp only
    rw [settle_eq_ok_iff.mpr hread]

/-- A read of bytes that are not there has lost them. -/
theorem fetch_lost {reader : Reader} (hopen : (handler (.openRead shard.files.data) s).1 = .ok reader)
    {cause : IoError} (hread : (handler (.readAt reader planned.offset planned.length) s).1 = .error cause)
    (hkind : cause.kind = .notFound ∨ cause.kind = .unexpectedEof) :
    shard.fetch handler s planned =
      .error (.dataLoss (.missingBytes planned.length planned.offset shard.files.data shard.blockCount cause)) := by
  rw [fetch, settle_eq_ok_iff.mpr hopen]
  dsimp only
  rw [hread, settle_of_kind hkind]
  dsimp only
  rw [readError, if_pos hkind]

/-- A handle that is there is the one that opening would answer. -/
theorem yields_openData_settle (h : Archive handler s files) (hhandled : shard.Handled (Source.of handler s)) :
    shard.openData.Yields handler (· = s)
      (· = settle (shard.retryPolicy.maxRetries + 1) (handler (.openRead shard.files.data) s).1) := by
  rw [openData]
  cases hdata : shard.data with
  | none => exact yields_retried_settle h.waits shard.retryPolicy (h.answers (.openRead shard.files.data) trivial)
  | some reader =>
    apply yields_done
    have hreader : (handler (.openRead shard.files.data) s).1.toOption = some reader := hhandled reader hdata
    cases hopen : (handler (.openRead shard.files.data) s).1 with
    | error error =>
      rw [hopen] at hreader
      cases hreader
    | ok found =>
      rw [hopen] at hreader
      cases hreader
      rfl

theorem yields_read_fetch (h : Archive handler s files) (hhandled : shard.Handled (Source.of handler s))
    (hplanned : shard.reads[index]? = some planned) :
    (shard.read index).Yields handler (· = s) fun result =>
      result.1 = (shard.fetch handler s planned).map some := by
  rw [ShardReader.read, hplanned]
  dsimp only
  apply (yields_openData_settle h hhandled).bind
  intro opened hopened
  rw [fetch, ← hopened]
  cases opened with
  | error failure => exact yields_done rfl
  | ok reader =>
    dsimp only
    apply (yields_retried_settle h.waits shard.retryPolicy
      (h.answers (.readAt reader planned.offset planned.length) trivial)).bind
    intro buffer hbuffer
    rw [← hbuffer]
    cases buffer with
    | error failure => exact yields_done rfl
    | ok buffer => exact yields_done rfl

end ShardReader

/-! ## Partitions -/

namespace PartitionReader

variable {shards front rest : List ShardReader} {reader : PartitionReader} {index : Nat}

/-- The planned reads of some shards, one after the other, each with its shard. -/
def planned (shards : List ShardReader) : List (ShardReader × RangedRead) :=
  shards.flatMap fun shard => shard.reads.toList.map (shard, ·)

theorem planned_cons (shard : ShardReader) (shards : List ShardReader) :
    planned (shard :: shards) = shard.reads.toList.map (shard, ·) ++ planned shards := rfl

theorem planned_append (front rest : List ShardReader) : planned (front ++ rest) = planned front ++ planned rest :=
  List.flatMap_append

theorem length_planned (shards : List ShardReader) : (planned shards).length = ShardReader.total shards := by
  induction shards with
  | nil => rfl
  | cons shard shards ih =>
    rw [planned_cons, List.length_append, ih, List.length_map, Array.length_toList]
    rfl

theorem mem_planned {shard : ShardReader} {planned' : RangedRead} :
    (shard, planned') ∈ planned shards ↔ shard ∈ shards ∧ planned' ∈ shard.reads.toList := by
  rw [planned, List.mem_flatMap]
  constructor
  · rintro ⟨other, hother, hmem⟩
    obtain ⟨_, hread, ⟨⟩⟩ := List.mem_map.mp hmem
    exact ⟨hother, hread⟩
  · rintro ⟨hshard, hread⟩
    exact ⟨shard, hshard, List.mem_map_of_mem hread⟩

def fetch (handler : Handler σ) (s : σ) (read : ShardReader × RangedRead) : Except Error Batch :=
  read.1.fetch handler s read.2

/-- What the reads of some shards come to. -/
def answers (handler : Handler σ) (s : σ) (shards : List ShardReader) : List (Except Error Batch) :=
  (planned shards).map (fetch handler s)

theorem answers_map_close (shards : List ShardReader) :
    answers handler s (shards.map ShardReader.close) = answers handler s shards := by
  induction shards with
  | nil => rfl
  | cons shard shards ih =>
    rw [answers, answers, List.map_cons, planned_cons, planned_cons, List.map_append, List.map_append, List.map_map,
      List.map_map]
    exact congrArg₂ (· ++ ·) rfl ih

theorem length_answers (shards : List ShardReader) : (answers handler s shards).length = ShardReader.total shards := by
  rw [answers, List.length_map, length_planned]

/-- The reads of a shard are behind those of the shards in front of it. -/
theorem getElem?_answers {shard : ShardReader} {k : Nat} (hk : k < shard.readCount) :
    (answers handler s (front ++ shard :: rest))[ShardReader.total front + k]? =
      some (shard.fetch handler s shard.reads[k]) := by
  rw [answers, planned_append, planned_cons, List.getElem?_map,
    List.getElem?_append_right (by rw [length_planned]; omega), length_planned, Nat.add_sub_cancel_left,
    List.getElem?_append_left (by rw [List.length_map, Array.length_toList]; exact hk), List.getElem?_map,
    Array.getElem?_toList, Array.getElem?_eq_getElem hk]
  rfl

/-- **A read answers what is known of it**, and the end behind the last of them. -/
theorem yields_read_answers (h : Archive handler s files) (hlevel : reader.Level (Source.of handler s) index) :
    (reader.read index).Yields handler (· = s) fun result =>
      result.2.Level (Source.of handler s) index ∧ result.2.readCount = reader.readCount ∧
      answers handler s result.2.shards = answers handler s reader.shards ∧
      result.1 = match (answers handler s reader.shards)[index]? with
        | none => .ok none
        | some answer => answer.map some := by
  intro now hnow
  subst hnow
  rcases hrun : (reader.read index).run handler now with ⟨⟨answer, after⟩, s'⟩
  obtain ⟨hgood, hafter, hshards, -⟩ := read_comes (h.holdsStill.draws rfl) hlevel rfl hrun
  refine ⟨⟨hafter, (placed_read hlevel.placed hrun).2, ?_, ?_⟩, hgood⟩
  · rw [← answers_map_close, hshards, answers_map_close]
  have hbase := hlevel.base_le
  have hplaced : reader.base = ShardReader.total reader.passed := hlevel.placed
  rw [PartitionReader.read, if_neg (by omega)] at hrun
  rcases advance_cases index reader.ahead reader.passed reader.base hbase with
    ⟨front, shard, rest, hahead, hle, hlt, hadvance⟩ | ⟨hle, hadvance⟩
  · generalize hk : index - (reader.base + ShardReader.total front) = k at hlt hadvance
    have hindex : index = ShardReader.total (reader.passed ++ front) + k := by
      rw [ShardReader.total_append]
      omega
    have hread := (ShardReader.yields_read_fetch h (hlevel.handled shard (by rw [hahead]; simp))
      (Array.getElem?_eq_getElem hlt) now rfl).1
    rw [shards, hahead, ← List.append_assoc, hindex, getElem?_answers hlt]
    rw [hadvance, run_bind] at hrun
    exact (congrArg (fun run => run.1.1) hrun).symm.trans hread
  · rw [List.getElem?_eq_none (by rw [length_answers, shards, ShardReader.total_append]; omega)]
    rw [hadvance] at hrun
    exact (congrArg (fun run => run.1.1) hrun).symm

end PartitionReader

/-! ## Planned reads and entries -/

namespace RangedRead

/-- The blocks of a planned read, with the bytes that a data file has for them. -/
def copiesIn (planned : RangedRead) (data : Bytes) : List BlockCopy :=
  planned.slices.map (BlockCopy.ofSlice (data.drop planned.offset))

/-- What comes back of a read has the blocks that the data file has, wherever that ends. -/
theorem copies_eq_copiesIn {planned : RangedRead}
    (hinside : ∀ slice ∈ planned.slices, slice.offset + slice.length ≤ planned.length) (data : Bytes) :
    Batch.copies ⟨planned.bytesOf data, planned.slices⟩ = planned.copiesIn data := by
  apply List.map_congr_left
  intro slice hslice
  have hle := hinside slice hslice
  rw [BlockCopy.ofSlice, BlockCopy.ofSlice, bytesOf, List.drop_take, List.take_take, Nat.min_eq_left (by omega)]

variable {first : IndexEntry} {rest : List IndexEntry}

theorem copiesIn_ofBatch (h : (first :: rest).Pairwise ReadPlan.Before) (data : Bytes) :
    (ofBatch first rest).copiesIn data = (first :: rest).map (BlockCopy.ofEntry data) := by
  rw [copiesIn, ofBatch, List.map_map]
  apply List.map_congr_left
  intro entry he
  have hstart := (bounds_ofBatch h he).1
  simp only [Function.comp_apply, BlockCopy.ofSlice, BlockCopy.ofEntry, BlockSlice.ofEntry, List.drop_drop]
  rw [Nat.add_sub_cancel' hstart]

theorem stop_ofBatch (h : (first :: rest).Pairwise ReadPlan.Before) :
    (ofBatch first rest).offset + (ofBatch first rest).length =
      ((first :: rest).getLast (List.cons_ne_nil first rest)).stop := by
  have hspan := (bounds_ofBatch h List.mem_cons_self).2
  have hgrow : first.offset.toNat ≤ first.stop := Nat.le_add_right _ _
  simp only [ofBatch]
  omega

end RangedRead

namespace ShardReader

variable {files : Path → Option Bytes} {config : ReadConfig} {shard : ShardReader}

/-- **The planned reads of a shard are about the entries of its index**, each of them once and in order. -/
theorem flatMap_copiesIn (h : shard.OpenedFrom files config) (data : Bytes) :
    shard.reads.toList.flatMap (·.copiesIn data) =
      (indexEntries files shard.files.index).map (BlockCopy.ofEntry data) := by
  obtain ⟨pieces, hreads, hflat, hpieces⟩ := ordered_of_openedFrom h
  rw [hreads, List.flatMap_map, ← hflat, List.map_flatMap]
  apply List.flatMap_congr
  intro piece hpiece
  exact RangedRead.copiesIn_ofBatch (hpieces piece hpiece).1 data

theorem inside_of_openedFrom (h : shard.OpenedFrom files config) {planned : RangedRead}
    (hplanned : planned ∈ shard.reads.toList) :
    ∀ slice ∈ planned.slices, slice.offset + slice.length ≤ planned.length := by
  obtain ⟨pieces, hreads, -, hpieces⟩ := ordered_of_openedFrom h
  rw [hreads] at hplanned
  obtain ⟨piece, hpiece, rfl⟩ := List.mem_map.mp hplanned
  intro slice hslice
  obtain ⟨entry, he, rfl⟩ := List.mem_map.mp hslice
  obtain ⟨hstart, hstop⟩ := RangedRead.bounds_ofBatch (hpieces piece hpiece).1 he
  simp only [BlockSlice.ofEntry, RangedRead.ofBatch, IndexEntry.stop] at *
  omega

/-- A planned read reaches behind a file just if one of the entries does. -/
theorem exists_past_iff (h : shard.OpenedFrom files config) (size : Nat) :
    (∃ planned ∈ shard.reads.toList, size < planned.offset + planned.length) ↔
      ∃ entry ∈ indexEntries files shard.files.index, size < entry.stop := by
  obtain ⟨pieces, hreads, hflat, hpieces⟩ := ordered_of_openedFrom h
  rw [hreads]
  constructor
  · rintro ⟨planned, hplanned, hpast⟩
    obtain ⟨piece, hpiece, rfl⟩ := List.mem_map.mp hplanned
    rw [RangedRead.stop_ofBatch (hpieces piece hpiece).1] at hpast
    exact ⟨_, (hpieces piece hpiece).2 _ (List.getLast_mem _), hpast⟩
  · rintro ⟨entry, he, hpast⟩
    rw [← hflat] at he
    obtain ⟨piece, hpiece, he⟩ := List.mem_flatMap.mp he
    refine ⟨_, List.mem_map_of_mem hpiece, ?_⟩
    rw [RangedRead.stop_ofBatch (hpieces piece hpiece).1]
    exact hpast.trans_le (RangedRead.bounds_ofBatch (hpieces piece hpiece).1 he).2

end ShardReader

/-! ## Reads of a disk -/

namespace Disk

variable {disk : Disk} {path : Path} {shard : ShardReader} {planned : RangedRead}

theorem bytes?_of_isDirectory (h : disk.isDirectory path = true) : disk.bytes? path = none := by
  rw [bytes?, find?]
  rw [isDirectory] at h
  split at h
  · rename_i hlookup
    rw [hlookup]
    rfl
  · cases h

/-- What a read of a disk answers: bytes of a file that reaches so far, or no bytes of a directory. -/
theorem fetched_cases {reader : Reader} {offset length : Nat} {buffer : Bytes}
    (hreader : (Source.of Disk.handler disk).reader path = some reader)
    (hbuffer : (Source.of Disk.handler disk).bytes reader offset length = some buffer) :
    (∃ data, disk.bytes? path = some data ∧ offset + length ≤ data.length ∧
        buffer = (data.drop offset).take length) ∨
      disk.isDirectory path = true ∧ length = 0 ∧ buffer = [] := by
  change (disk.openRead path).toOption = some reader at hreader
  change (disk.readAt reader offset length).toOption = some buffer at hbuffer
  rcases hlookup : disk.lookup path with fault | ⟨number, node⟩
  · rw [openRead, hlookup] at hreader
    cases hreader
  rw [openRead_of_lookup hlookup] at hreader
  cases hreader
  rw [readAt, Option.getD_some, node_of_lookup hlookup] at hbuffer
  cases node with
  | file contents =>
    left
    refine ⟨contents.bytes, by rw [bytes?, find?, hlookup]; rfl, ?_⟩
    dsimp only at hbuffer
    rw [Contents.slice?_eq_slice?_bytes, Bytes.slice?] at hbuffer
    split_ifs at hbuffer with hinside
    · cases hbuffer
      exact ⟨hinside, rfl⟩
    · cases hbuffer
  | directory above entries size =>
    -- No bytes can be read of a directory, but to read none of it is not refused.
    right
    dsimp only at hbuffer
    split_ifs at hbuffer with hpast hempty
    · cases hbuffer
    · cases hbuffer
      exact ⟨by rw [isDirectory, hlookup], hempty, rfl⟩
    · cases hbuffer

/-- A batch that comes back has the bytes of the data file. -/
theorem eq_of_fetch {batch : Batch} (h : shard.fetch Disk.handler disk planned = .ok batch) :
    batch = ⟨planned.bytesOf ((disk.bytes? shard.files.data).getD []), planned.slices⟩ := by
  obtain ⟨reader, buffer, hopen, hread, rfl⟩ := ShardReader.fetch_eq_ok_iff.mp h
  rcases fetched_cases (congrArg Except.toOption hopen) (congrArg Except.toOption hread) with
    ⟨data, hdata, -, rfl⟩ | ⟨hdirectory, hlength, rfl⟩
  · rw [hdata]
    rfl
  · rw [bytes?_of_isDirectory hdirectory, Option.getD_none, RangedRead.bytesOf, hlength]
    rfl

theorem readAt_past {number : Nat} {contents : Contents} (h : disk.nodes[number]? = some (.file contents))
    (path : Path) {offset length : Nat} (hpast : contents.bytes.length < offset + length) :
    ∃ cause, disk.readAt { path, file := some number } offset length = .error cause ∧
      cause.kind = .unexpectedEof := by
  rw [readAt, Option.getD_some, h]
  dsimp only
  rw [Contents.slice?_eq_slice?_bytes, Bytes.slice?, if_neg (Nat.not_le.mpr hpast)]
  exact ⟨_, rfl, rfl⟩

/-- Where the data file is a file, a read is answered or its data is lost. -/
theorem fetch_file {data : Bytes} (h : disk.bytes? shard.files.data = some data) :
    (planned.offset + planned.length ≤ data.length → ∃ batch, shard.fetch Disk.handler disk planned = .ok batch) ∧
    (data.length < planned.offset + planned.length →
      ∃ loss, shard.fetch Disk.handler disk planned = .error (.dataLoss loss)) := by
  obtain ⟨contents, hfind, rfl⟩ := Option.map_eq_some_iff.mp h
  rw [find?] at hfind
  split at hfind
  · rename_i number found hlookup
    cases hfind
    have hnode := node_of_lookup hlookup
    have hopen : (Disk.handler (.openRead shard.files.data) disk).1 = _ := openRead_of_lookup hlookup
    constructor
    · intro hle
      have hread := ((reads_file hnode shard.files.data).readAt _ _ hle disk rfl).1
      exact ⟨_, ShardReader.fetch_eq_ok_iff.mpr ⟨_, _, hopen, hread, rfl⟩⟩
    · intro hpast
      obtain ⟨cause, hread, hkind⟩ := readAt_past hnode shard.files.data hpast
      exact ⟨_, ShardReader.fetch_lost hopen hread (Or.inr hkind)⟩
  · cases hfind

end Disk

end BlockShuffle
