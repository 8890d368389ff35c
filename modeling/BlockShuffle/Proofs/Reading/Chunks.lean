import Mathlib
import BlockShuffle.Proofs.Reading.Opening
import BlockShuffle.Proofs.Storage.Trace

/-!
# The reads that an index is loaded with

`Reading.Opening` says what loading an index comes to. This is how it gets there: which ranges of the file are asked
for (`ShardReader.chunksFrom`), one behind the other up to the last whole entry. Each of them is whole entries. A chunk
as long as the limit says is, because the limit counts entries; the last one is, because whole entries are left; and a
chunk size that stops at the largest word is no exception, because no file is longer than that and so the one chunk is
all there is left (`ShardReader.mod_size_chunk`).

Where no call fails none is made twice, so the ranges are the calls (`ShardReader.makes_readEntries`).

Values and calls are kept apart because they need different predicates. `Yields` forgets how a value was come
by, and a trace of a run that fails now and then has each call several times; here it is the run without
failures that says which ranges a reader asks for, `Makes` being both at once. That nothing is asked for twice,
nothing left out and nothing behind the last whole entry is one property of a list of ranges (`WholeEntries`),
stated without the program.

The limit is taken as it is given, zero included. Nothing is said about how many bytes a storage reads to answer
a range.
-/

set_option autoImplicit false

namespace BlockShuffle

open Storage Program

variable {σ α β : Type} {handler : Handler σ} {good : σ → Prop}

/-! ## The calls of a run that does not fail -/

/-- From every good state the program makes calls and ends with a value of which `post` holds, in a good state. -/
def Storage.Program.Makes (handler : Handler σ) (good : σ → Prop) (program : Program α)
    (post : List Call → α → Prop) : Prop :=
  ∀ s, good s → post (program.calls handler s) (program.run handler s).1 ∧ good (program.run handler s).2

namespace Storage.Program

theorem calls_bind (program : Program α) (next : α → Program β) (s : σ) :
    (program >>= next).calls handler s = program.calls handler s ++
      (next (program.run handler s).1).calls handler (program.run handler s).2 := by
  induction program generalizing s with
  | done value => rfl
  | ask call rest ih => exact congrArg (call :: ·) (ih _ _)

theorem makes_done {value : α} {post : List Call → α → Prop} (h : post [] value) :
    (Program.done value).Makes handler good post :=
  fun _ hs => ⟨h, hs⟩

theorem Makes.bind {program : Program α} {next : α → Program β} {mid : List Call → α → Prop}
    {post : List Call → β → Prop} (h : program.Makes handler good mid)
    (hnext : ∀ calls value, mid calls value →
      (next value).Makes handler good fun more result => post (calls ++ more) result) :
    (program >>= next).Makes handler good post := by
  intro s hs
  obtain ⟨hmid, hgood⟩ := h s hs
  rw [run_bind, calls_bind]
  exact hnext _ _ hmid _ hgood

/-- A call that is answered with a value is made once, however often it may be retried. -/
theorem makes_retried {call : Call} {operation : Program (Except IoError α)} {mid : α → Prop} (policy : RetryPolicy)
    (hcalls : ∀ s, operation.calls handler s = [call])
    (h : operation.Yields handler good fun answer => ∃ value, answer = .ok value ∧ mid value) :
    (retried policy operation).Makes handler good fun calls answer =>
      calls = [call] ∧ ∃ value, answer = .ok value ∧ mid value := by
  intro s hs
  obtain ⟨⟨value, hvalue, hmid⟩, hgood⟩ := h s hs
  rw [retried, retry]
  cases policy.maxRetries with
  | zero =>
    rw [retryFrom, calls_bind, run_bind, hcalls, hvalue]
    exact ⟨⟨rfl, value, rfl, hmid⟩, hgood⟩
  | succ left =>
    rw [retryFrom, calls_bind, run_bind, hcalls, hvalue]
    exact ⟨⟨rfl, value, rfl, hmid⟩, hgood⟩

end Storage.Program

/-! ## Ranges -/

/-- Ranges, by offset and length, that lie behind one another from `start` up to `stop`. -/
def Abut (stop : Nat) : (start : Nat) → List (Nat × Nat) → Prop
  | start, [] => start = stop
  | start, (offset, length) :: rest => offset = start ∧ Abut stop (offset + length) rest

/-- Ranges that take the whole entries of an index of this size, each of them exactly once. -/
structure WholeEntries (size entryLimit : Nat) (ranges : List (Nat × Nat)) : Prop where
  /-- Nothing is left out between two of them, and nothing is read twice. -/
  abut : Abut (size - size % IndexEntry.size) 0 ranges
  start : ∀ range ∈ ranges, range.1 % IndexEntry.size = 0
  nonempty : ∀ range ∈ ranges, 0 < range.2
  whole : ∀ range ∈ ranges, range.2 % IndexEntry.size = 0
  inside : ∀ range ∈ ranges, range.1 + range.2 ≤ size
  limited : ∀ range ∈ ranges, range.2 ≤ max entryLimit 1 * IndexEntry.size
  /-- Each takes an entry at least, so there is an end to them. -/
  count : ranges.length ≤ size / IndexEntry.size

namespace ShardReader

/-- The ranges that the `left` bytes from `offset` are read in. -/
def chunksFrom (entryLimit : Nat) (offset left : Nat) : List (Nat × Nat) :=
  if left = 0 then []
  else
    let length := min (chunkSize entryLimit) left
    (offset, length) :: chunksFrom entryLimit (offset + length) (left - length)
termination_by left
decreasing_by
  simp only [chunkSize, IndexEntry.size, UInt64.size]
  omega

theorem chunkSize_pos (entryLimit : Nat) : 0 < chunkSize entryLimit := by
  simp only [chunkSize, IndexEntry.size, UInt64.size]
  omega

/-- **A chunk is whole entries**, if whole entries are left. -/
theorem mod_size_chunk (entryLimit : Nat) {left : Nat} (hlt : left < UInt64.size)
    (hwhole : left % IndexEntry.size = 0) : min (chunkSize entryLimit) left % IndexEntry.size = 0 := by
  rcases chunk_whole_or_all entryLimit hlt with h | h
  · exact h
  · rw [h]
    exact hwhole

theorem abut_chunksFrom (entryLimit offset left : Nat) :
    Abut (offset + left) offset (chunksFrom entryLimit offset left) := by
  fun_induction chunksFrom entryLimit offset left with
  | case1 offset => rfl
  | case2 offset left hleft length ih =>
    refine ⟨rfl, ?_⟩
    rwa [Nat.add_assoc, Nat.add_sub_cancel' (Nat.min_le_right _ _)] at ih

/-- Every chunk of whole entries starts at one, and is whole entries, within the limit and in the file. -/
theorem mem_chunksFrom (entryLimit offset left : Nat) (hlt : left < UInt64.size)
    (hoffset : offset % IndexEntry.size = 0) (hwhole : left % IndexEntry.size = 0) :
    ∀ range ∈ chunksFrom entryLimit offset left,
      range.1 % IndexEntry.size = 0 ∧ 0 < range.2 ∧ range.2 % IndexEntry.size = 0 ∧
        range.1 + range.2 ≤ offset + left ∧ range.2 ≤ max entryLimit 1 * IndexEntry.size := by
  fun_induction chunksFrom entryLimit offset left with
  | case1 offset => exact List.forall_mem_nil _
  | case2 offset left hleft length ih =>
    have hpos := chunkSize_pos entryLimit
    have hchunk : length % IndexEntry.size = 0 := mod_size_chunk entryLimit hlt hwhole
    have hlimit : chunkSize entryLimit ≤ max entryLimit 1 * IndexEntry.size := Nat.min_le_left _ _
    have hle : length ≤ chunkSize entryLimit := Nat.min_le_left _ _
    have hle' : length ≤ left := Nat.min_le_right _ _
    have hnonempty : 0 < length := Nat.lt_min.mpr ⟨hpos, Nat.pos_of_ne_zero hleft⟩
    have hrest := ih (by omega) (by simp only [IndexEntry.size] at *; omega)
      (by simp only [IndexEntry.size] at *; omega)
    rw [Nat.add_assoc, Nat.add_sub_cancel' hle'] at hrest
    rw [List.forall_mem_cons]
    exact ⟨⟨hoffset, hnonempty, hchunk, Nat.add_le_add_left hle' _, hle.trans hlimit⟩, hrest⟩

theorem length_chunksFrom_le (entryLimit offset left : Nat) (hlt : left < UInt64.size)
    (hwhole : left % IndexEntry.size = 0) :
    (chunksFrom entryLimit offset left).length ≤ left / IndexEntry.size := by
  fun_induction chunksFrom entryLimit offset left with
  | case1 offset => exact Nat.zero_le _
  | case2 offset left hleft length ih =>
    have hpos := chunkSize_pos entryLimit
    have hchunk : length % IndexEntry.size = 0 := mod_size_chunk entryLimit hlt hwhole
    have hle : length ≤ left := Nat.min_le_right _ _
    have hnonempty : 0 < length := Nat.lt_min.mpr ⟨hpos, Nat.pos_of_ne_zero hleft⟩
    have hrest := ih (by omega) (by simp only [IndexEntry.size] at *; omega)
    rw [List.length_cons]
    simp only [IndexEntry.size] at *
    omega

theorem wholeEntries_chunksFrom (entryLimit : Nat) {size : Nat} (h : size < UInt64.size) :
    WholeEntries size entryLimit (chunksFrom entryLimit 0 (size - size % IndexEntry.size)) := by
  have hwhole : (size - size % IndexEntry.size) % IndexEntry.size = 0 := by
    simp only [IndexEntry.size]
    omega
  have hmem := mem_chunksFrom entryLimit 0 (size - size % IndexEntry.size) (by omega) rfl hwhole
  have habut := abut_chunksFrom entryLimit 0 (size - size % IndexEntry.size)
  rw [Nat.zero_add] at habut
  refine ⟨habut, fun range hr => (hmem range hr).1, fun range hr => (hmem range hr).2.1,
    fun range hr => (hmem range hr).2.2.1, fun range hr => ?_, fun range hr => (hmem range hr).2.2.2.2, ?_⟩
  · have := (hmem range hr).2.2.2.1
    omega
  · apply (length_chunksFrom_le entryLimit 0 (size - size % IndexEntry.size) (by omega) hwhole).trans
    exact Nat.div_le_div_right (Nat.sub_le _ _)

/-! ## Loading -/

variable {index : Reader} {bytes : Bytes}

theorem makes_readEntries (hholds : Holds handler good index bytes) (policy : RetryPolicy) (entryLimit left : Nat) :
    ∀ (offset : Nat) (done : List IndexEntry), offset + left ≤ bytes.length →
      (readEntries policy index entryLimit offset left done).Makes handler good fun calls _ =>
        calls = (chunksFrom entryLimit offset left).map fun range => .readAt index range.1 range.2 := by
  induction left using Nat.strong_induction_on with
  | _ left ih =>
    intro offset done hle
    rw [readEntries, chunksFrom]
    split
    · exact makes_done rfl
    · have hpos := chunkSize_pos entryLimit
      have hread := hholds.readAt offset (min (chunkSize entryLimit) left) (by omega)
      apply (makes_retried policy (fun _ => rfl) (hread.mono fun _ h => ⟨_, h, rfl⟩)).bind
      rintro _ _ ⟨rfl, _, rfl, rfl⟩
      intro s hs
      obtain ⟨hcalls, hgood⟩ := ih (left - min (chunkSize entryLimit) left) (by omega)
        (offset + min (chunkSize entryLimit) left) _ (by omega) s hs
      exact ⟨congrArg (Call.readAt index offset _ :: ·) hcalls, hgood⟩

/-- **Loading an index in chunks is decoding it as a whole**, whatever the limit. The file is opened, measured and read
in ranges of whole entries, one behind the other up to the last whole one; what is behind that is not read. -/
theorem index_loaded_in_whole_entries (hpause : Waits handler good) {path : Path}
    (hopen : (Program.openRead path).Yields handler good
      fun answer => ∃ reader, answer = .ok reader ∧ Reads handler good reader bytes)
    (policy : RetryPolicy) (entryLimit : Nat) {s : σ} (hs : good s) :
    ((readIndex policy path entryLimit).run handler s).1 = .ok (IndexEntry.decodeAll bytes).1 ∧
      ∃ (reader : Reader) (ranges : List (Nat × Nat)),
        (readIndex policy path entryLimit).calls handler s = .openRead path :: .size reader ::
          ranges.map (fun range => .readAt reader range.1 range.2) ∧
        WholeEntries bytes.length entryLimit ranges := by
  refine ⟨(yields_readIndex hpause policy hopen entryLimit s hs).1, ?_⟩
  suffices h : (readIndex policy path entryLimit).Makes handler good fun calls _ =>
      ∃ (reader : Reader) (ranges : List (Nat × Nat)),
        calls = .openRead path :: .size reader :: ranges.map (fun range => .readAt reader range.1 range.2) ∧
        WholeEntries bytes.length entryLimit ranges from (h s hs).1
  rw [readIndex]
  apply (makes_retried policy (fun _ => rfl) hopen).bind
  rintro _ _ ⟨rfl, reader, rfl, hreads⟩
  apply (makes_retried policy (fun _ => rfl) (hreads.size.mono fun _ h => ⟨_, h, rfl⟩)).bind
  rintro _ _ ⟨rfl, _, rfl, rfl⟩
  intro s hs
  obtain ⟨hcalls, hgood⟩ := makes_readEntries hreads.holds policy entryLimit
    (bytes.length - bytes.length % IndexEntry.size) 0 [] (by omega) s hs
  refine ⟨⟨reader, _, ?_, wholeEntries_chunksFrom entryLimit hreads.length_lt⟩, hgood⟩
  dsimp only
  rw [hcalls]
  rfl

/-- An index of two entries and the start of a third. -/
def tornIndex : Bytes :=
  IndexEntry.encode ⟨1, 1, 0, ⟨0⟩, 0, 0⟩ ++ IndexEntry.encode ⟨1, 1, 0, ⟨1⟩, 0, 1⟩ ++ [0, 0, 0, 0, 7]

def tornIndexPath : Path := .ofText "d/w_0.index"

def tornMemory : Memory := (Memory.mk []).insert tornIndexPath ⟨.ofBytes tornIndex, by decide⟩

theorem bytes?_tornMemory : tornMemory.bytes? tornIndexPath = some tornIndex := by
  rw [tornMemory, Memory.bytes?_insert_self]
  exact congrArg some (Packed.toBytes_ofBytes _)

theorem index_loaded_in_whole_entries_torn :
    ((readIndex (.fixed 0 0) tornIndexPath 1).run Memory.handler tornMemory).1 =
      .ok [⟨1, 1, 0, ⟨0⟩, 0, 0⟩, ⟨1, 1, 0, ⟨1⟩, 0, 1⟩] := by
  have hserves := Memory.serves_memory tornMemory
  have hloaded := index_loaded_in_whole_entries hserves.pause (hserves.openRead _ _ bytes?_tornMemory)
    (.fixed 0 0) 1 rfl
  have hentries : (IndexEntry.decodeAll tornIndex).1 = [⟨1, 1, 0, ⟨0⟩, 0, 0⟩, ⟨1, 1, 0, ⟨1⟩, 0, 1⟩] := by decide +kernel
  rw [← hentries]
  exact hloaded.1

end ShardReader

end BlockShuffle
