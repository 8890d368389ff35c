import Mathlib
import BlockShuffle.Proofs.Reading.Cursor
import BlockShuffle.Proofs.Reading.Feeding

/-!
# Reads by their numbers

A caller may ask a partition reader for any number at any time: the same one twice, one far ahead, one
that is behind, the next one after a failure. What it gets is told by the numbers alone. `InShard` says
which shard a number falls into, `movedTo` and `finished` what the reader is afterwards, and `read_cases`
is the program equation for the three things that can happen. Nothing in it speaks of how the shards
answer, so the base stays the number of reads in front of the shard being read (`Kept`) through failed
reads as well.

Reading the numbers in order comes to reading out each shard, one after another (`run_readEach_range`).

A read at a number in front of the base subtracts nothing: it is refused before the subtraction, and in all
other cases the base is not behind the number. That is what `advanceChecked` is for. It is `advance` with the
subtraction checked, and the two are equal from every reader that is kept, so the naturals' subtraction, which
stops at zero, is never asked to.

What a shard answers is a parameter, and so is the storage. Three outcomes are told apart for a number, and each
of them is an equation between programs and not a statement about runs, which is why it can be used on a storage
that fails as well as on one that does not.
-/

set_option autoImplicit false

namespace BlockShuffle

open Storage

/-! ## Numbers -/

namespace ShardReader

/-- The number of the first read of shard number `j`. -/
def start (shards : List ShardReader) (j : Nat) : Nat := total (shards.take j)

/-- Read number `index` is a read of shard number `j`. -/
def InShard (shards : List ShardReader) (index j : Nat) : Prop :=
  start shards j ≤ index ∧ index < start shards (j + 1)

theorem start_mono (shards : List ShardReader) {i j : Nat} (h : i ≤ j) : start shards i ≤ start shards j := by
  have hsplit : shards.take j = shards.take i ++ (shards.take j).drop i := by
    rw [← Nat.min_eq_left h, ← List.take_take, Nat.min_eq_left h, List.take_append_drop]
  rw [start, start, hsplit, total_append]
  omega

theorem start_length (front rest : List ShardReader) : start (front ++ rest) front.length = total front := by
  rw [start, List.take_left]

theorem start_length_succ (front rest : List ShardReader) (shard : ShardReader) :
    start (front ++ shard :: rest) (front.length + 1) = total front + shard.readCount := by
  rw [start, List.take_length_add_append, total_append]
  rfl

theorem total_congr {shards others : List ShardReader} (h : shards.map close = others.map close) :
    total shards = total others := by
  rw [← total_map_close shards, h, total_map_close]

theorem start_congr {shards others : List ShardReader} (h : shards.map close = others.map close) (j : Nat) :
    start shards j = start others j := by
  apply total_congr
  rw [List.map_take, List.map_take, h]

theorem inShard_congr {shards others : List ShardReader} (h : shards.map close = others.map close)
    (index j : Nat) : InShard shards index j ↔ InShard others index j := by
  rw [InShard, InShard, start_congr h, start_congr h]

/-- A number below the total is of one shard. -/
theorem exists_inShard {shards : List ShardReader} :
    ∀ {index : Nat}, index < total shards → ∃ j, InShard shards index j := by
  induction shards with
  | nil => exact fun h => absurd h (Nat.not_lt_zero _)
  | cons shard shards ih =>
    intro index h
    rw [total_cons] at h
    by_cases hfirst : index < shard.readCount
    · exact ⟨0, Nat.zero_le _, by rw [start, List.take_succ_cons, total_cons]; omega⟩
    · have hrest : index - shard.readCount < total shards := by omega
      obtain ⟨j, hle, hlt⟩ := ih hrest
      refine ⟨j + 1, ?_, ?_⟩ <;> rw [start] at hle hlt ⊢ <;> rw [List.take_succ_cons, total_cons] <;> omega

theorem InShard.unique {shards : List ShardReader} {index i j : Nat} (hi : InShard shards index i)
    (hj : InShard shards index j) : i = j := by
  -- A shard behind another starts where that one ends, or later.
  rcases Nat.lt_trichotomy i j with h | h | h
  · exact absurd (hi.2.trans_le ((start_mono shards h).trans hj.1)) (lt_irrefl index)
  · exact h
  · exact absurd (hj.2.trans_le ((start_mono shards h).trans hi.1)) (lt_irrefl index)

/-- A number of a shard splits the shards at that shard. -/
theorem InShard.split {shards : List ShardReader} {index j : Nat} (h : InShard shards index j) :
    ∃ front shard rest, shards = front ++ shard :: rest ∧ front.length = j ∧
      total front ≤ index ∧ index - total front < shard.readCount := by
  obtain ⟨hle, hlt⟩ := h
  have hj : j < shards.length := by
    by_contra hge
    rw [start, List.take_of_length_le (by omega)] at hle hlt
    omega
  have hsplit : shards = shards.take j ++ shards[j] :: shards.drop (j + 1) := by
    rw [List.cons_getElem_drop_succ, List.take_append_drop]
  have hlength : (shards.take j).length = j := List.length_take_of_le hj.le
  have hend := start_length_succ (shards.take j) (shards.drop (j + 1)) shards[j]
  rw [← hsplit, hlength] at hend
  rw [start] at hle
  exact ⟨shards.take j, shards[j], shards.drop (j + 1), hsplit, hlength, hle, by omega⟩

variable {σ : Type} {handler : Handler σ}

@[simp] theorem readCount_readEach (indices : List Nat) : ∀ (shard : ShardReader) (s : σ),
    ((readEach indices shard).run handler s).1.2.readCount = shard.readCount := by
  induction indices with
  | nil => exact fun _ _ => rfl
  | cons index indices ih =>
    intro shard s
    rw [readEach, Program.run_bind]
    dsimp only
    rw [Program.run_bind]
    exact (ih _ _).trans (readCount_read shard index s)

theorem length_readEach (indices : List Nat) : ∀ (shard : ShardReader) (s : σ),
    ((readEach indices shard).run handler s).1.1.length = indices.length := by
  induction indices with
  | nil => exact fun _ _ => rfl
  | cons index indices ih =>
    intro shard s
    rw [readEach, Program.run_bind]
    dsimp only
    rw [Program.run_bind]
    exact congrArg (· + 1) (ih _ _)

/-- Planned reads do not find the end. -/
theorem ne_none_of_mem_readEach {indices : List Nat} : ∀ {shard : ShardReader} (s : σ),
    (∀ index ∈ indices, index < shard.readCount) →
      ∀ answer ∈ ((readEach indices shard).run handler s).1.1, answer ≠ .ok none := by
  induction indices with
  | nil => exact fun _ _ _ h => absurd h List.not_mem_nil
  | cons index indices ih =>
    intro shard s hplanned answer hanswer
    rw [readEach, Program.run_bind] at hanswer
    dsimp only at hanswer
    rw [Program.run_bind] at hanswer
    rcases List.mem_cons.mp hanswer with rfl | hrest
    · exact read_ne_none (hplanned index List.mem_cons_self) s
    · refine ih _ (fun other hother => ?_) answer hrest
      rw [readCount_read]
      exact hplanned other (List.mem_cons_of_mem _ hother)

/-- Make every read of every shard, in order, and close each shard behind its last. -/
def readOut : List ShardReader → Program (List (Except Error (Option Batch)) × List ShardReader)
  | [] => return ([], [])
  | shard :: rest => do
    let (answers, shard) ← readEach (List.range shard.readCount) shard
    let (others, rest) ← readOut rest
    return (answers ++ others, shard.close :: rest)

theorem run_readOut_cons (shard : ShardReader) (rest : List ShardReader) (s : σ) :
    (readOut (shard :: rest)).run handler s =
      (let first := (readEach (List.range shard.readCount) shard).run handler s
       let others := (readOut rest).run handler first.2
       ((first.1.1 ++ others.1.1, first.1.2.close :: others.1.2), others.2)) := by
  rw [readOut, Program.run_bind]
  dsimp only
  rw [Program.run_bind]
  rfl

/-- There is one answer for every read, and it is not the end. -/
theorem readOut_answers (shards : List ShardReader) : ∀ s : σ,
    ((readOut shards).run handler s).1.1.length = total shards ∧
      ∀ answer ∈ ((readOut shards).run handler s).1.1, answer ≠ .ok none := by
  induction shards with
  | nil => exact fun _ => ⟨rfl, fun _ h => absurd h List.not_mem_nil⟩
  | cons shard rest ih =>
    intro s
    obtain ⟨hlength, hanswers⟩ := ih ((readEach (List.range shard.readCount) shard).run handler s).2
    rw [run_readOut_cons]
    refine ⟨?_, fun answer h => ?_⟩
    · dsimp only
      rw [List.length_append, length_readEach, List.length_range, hlength, total_cons]
    · rcases List.mem_append.mp h with h | h
      · exact ne_none_of_mem_readEach s (fun _ => List.mem_range.mp) answer h
      · exact hanswers answer h

end ShardReader

namespace PartitionReader

open ShardReader (start InShard total)

/-! ## One read -/

/-- The reader once shard number `j`, which has become `shard`, is the one being read. -/
def movedTo (reader : PartitionReader) (j : Nat) (shard : ShardReader) : PartitionReader :=
  ⟨(reader.shards.take j).map ShardReader.close, shard :: reader.shards.drop (j + 1), start reader.shards j⟩

/-- The reader once every shard is passed. -/
def finished (reader : PartitionReader) : PartitionReader :=
  ⟨reader.shards.map ShardReader.close, [], total reader.shards⟩

/-- What is true of a reader of these shards at any time: it still has them, the ones it has passed are
closed, and its base is the number of reads it has passed with them. -/
structure Kept (shards : List ShardReader) (reader : PartitionReader) : Prop where
  same : reader.shards.map ShardReader.close = shards.map ShardReader.close
  closed : reader.passed.map ShardReader.close = reader.passed
  placed : reader.Placed

variable {shards : List ShardReader} {reader : PartitionReader}

theorem kept_ofShards (shards : List ShardReader) : Kept shards (ofShards shards) := ⟨rfl, rfl, rfl⟩

theorem Kept.base (h : Kept shards reader) : reader.base = start shards reader.shardIndex := by
  rw [h.placed, ← ShardReader.start_congr h.same]
  exact (ShardReader.start_length reader.passed reader.ahead).symm

theorem Kept.finished (h : Kept shards reader) : Kept shards reader.finished := by
  refine ⟨?_, ?_, (ShardReader.total_map_close _).symm⟩
  · rw [PartitionReader.finished, PartitionReader.shards, List.append_nil, List.map_map]
    exact h.same
  · rw [PartitionReader.finished, List.map_map]
    rfl

theorem Kept.movedTo (h : Kept shards reader) {front rest : List ShardReader} {shard shard' : ShardReader}
    (hsplit : reader.shards = front ++ shard :: rest) (hclose : shard'.close = shard.close) :
    Kept shards (reader.movedTo front.length shard') := by
  refine ⟨?_, ?_, ?_⟩
  · rw [← h.same, PartitionReader.movedTo, PartitionReader.shards]
    dsimp only
    rw [hsplit, List.take_left, List.map_append, List.map_map, List.map_cons, hclose, List.map_append,
      List.map_cons, List.drop_length_add_append]
    rfl
  · rw [PartitionReader.movedTo, List.map_map]
    rfl
  · exact (ShardReader.total_map_close _).symm

/-- **What a read comes to.** A number in front of the base is refused, a number of a shard is that shard's
to answer, and behind the last number is the end. -/
theorem read_cases (h : Kept shards reader) (index : Nat) :
    (index < reader.base ∧
      reader.read index = return (.error (.segmentOutOfOrder index reader.base), reader)) ∨
    (reader.base ≤ index ∧ ∃ front shard rest, reader.shards = front ++ shard :: rest ∧
      InShard reader.shards index front.length ∧ reader.shardIndex ≤ front.length ∧
      reader.read index = do
        let (outcome, shard) ← shard.read (index - start reader.shards front.length)
        return (outcome, reader.movedTo front.length shard)) ∨
    (total reader.shards ≤ index ∧ reader.base ≤ index ∧
      reader.read index = return (.ok none, reader.finished)) := by
  by_cases hlt : index < reader.base
  · exact Or.inl ⟨hlt, by rw [read, if_pos hlt]⟩
  · have hbase : reader.base = total reader.passed := h.placed
    rcases advance_cases index reader.ahead reader.passed reader.base (by omega) with
      ⟨front, shard, rest, hahead, hle, hin, hrun⟩ | ⟨hle, hrun⟩
    -- Passing shards counts their reads in the base, so a place behind the base is a place among all shards.
    · have hshards : reader.shards = (reader.passed ++ front) ++ shard :: rest := by
        rw [PartitionReader.shards, hahead, List.append_assoc]
      have hstart : reader.base + total front = start reader.shards (reader.passed ++ front).length := by
        rw [hshards, ShardReader.start_length, ShardReader.total_append, hbase]
      refine Or.inr (Or.inl ⟨by omega, reader.passed ++ front, shard, rest, hshards, ⟨by omega, ?_⟩, ?_, ?_⟩)
      · rw [hshards, ShardReader.start_length_succ, ShardReader.total_append, ← hbase]
        omega
      · rw [List.length_append]
        exact Nat.le_add_right _ _
      · have hmoved (shard' : ShardReader) : reader.movedTo (reader.passed ++ front).length shard' =
            ⟨reader.passed ++ front.map ShardReader.close, shard' :: rest, reader.base + total front⟩ := by
          rw [movedTo, ← hstart, hshards, List.take_left, List.map_append, h.closed,
            List.drop_length_add_append]
          rfl
        rw [read, if_neg hlt, hrun, ← hstart]
        simp only [hmoved]
    · refine Or.inr (Or.inr ⟨?_, by omega, ?_⟩)
      · rw [PartitionReader.shards, ShardReader.total_append, ← hbase]
        exact hle
      · rw [read, if_neg hlt, hrun, PartitionReader.finished, PartitionReader.shards, List.map_append, h.closed,
          ShardReader.total_append, ← hbase]

variable {σ : Type} {handler : Handler σ}

/-- A read keeps what is true of the reader, and does not go back, also where the shard's read fails. -/
theorem Kept.read (h : Kept shards reader) (index : Nat) (s : σ) :
    Kept shards ((reader.read index).run handler s).1.2 ∧
      reader.shardIndex ≤ ((reader.read index).run handler s).1.2.shardIndex := by
  rcases read_cases h index with ⟨-, hrun⟩ | ⟨-, front, shard, rest, hsplit, -, hle, hrun⟩ | ⟨-, -, hrun⟩
  · rw [hrun]
    exact ⟨h, le_rfl⟩
  · rw [hrun, Program.run_bind]
    refine ⟨h.movedTo hsplit (ShardReader.close_read shard _ s), hle.trans (le_of_eq ?_)⟩
    show front.length = ((reader.shards.take front.length).map ShardReader.close).length
    rw [List.length_map, hsplit, List.take_left]
  · rw [hrun]
    refine ⟨h.finished, ?_⟩
    show reader.passed.length ≤ (reader.shards.map ShardReader.close).length
    rw [List.length_map, PartitionReader.shards, List.length_append]
    omega

/-- `advance`, but for a base it is asked to take off a smaller number: then nothing. -/
def advanceChecked (index : Nat) (passed : List ShardReader) (base : Nat) :
    List ShardReader → Option (Program (Except Error (Option Batch) × PartitionReader))
  | [] => some (return (.ok none, ⟨passed, [], base⟩))
  | shard :: rest =>
    if index < base then none
    else if index - base < shard.readCount then some do
      let (outcome, shard) ← shard.read (index - base)
      return (outcome, ⟨passed, shard :: rest, base⟩)
    else advanceChecked index (passed ++ [shard.close]) (base + shard.readCount) rest

/-- From a base that is not behind the number, no base is ever behind it. -/
theorem advanceChecked_eq (index : Nat) (ahead : List ShardReader) :
    ∀ (passed : List ShardReader) {base : Nat}, base ≤ index →
      advanceChecked index passed base ahead = some (advance index passed base ahead) := by
  induction ahead with
  | nil => exact fun _ _ _ => rfl
  | cons shard ahead ih =>
    intro passed base h
    rw [advanceChecked, advance, if_neg (by omega)]
    by_cases hin : index - base < shard.readCount
    · rw [if_pos hin, if_pos hin]
    · rw [if_neg hin, if_neg hin]
      exact ih _ (by omega)

/-! ## Reads one after another -/

theorem run_readEach_cons (index : Nat) (indices : List Nat) (reader : PartitionReader) (s : σ) :
    (readEach (index :: indices) reader).run handler s =
      (((((reader.read index).run handler s).1.1 ::
          ((readEach indices ((reader.read index).run handler s).1.2).run handler
            ((reader.read index).run handler s).2).1.1),
        ((readEach indices ((reader.read index).run handler s).1.2).run handler
          ((reader.read index).run handler s).2).1.2),
        ((readEach indices ((reader.read index).run handler s).1.2).run handler
          ((reader.read index).run handler s).2).2) := by
  rw [readEach, Program.run_bind]
  dsimp only
  rw [Program.run_bind]
  rfl

theorem run_readEach_append (front : List Nat) (indices : List Nat) :
    ∀ (reader : PartitionReader) (s : σ), (readEach (front ++ indices) reader).run handler s =
      (let first := (readEach front reader).run handler s
       let last := (readEach indices first.1.2).run handler first.2
       ((first.1.1 ++ last.1.1, last.1.2), last.2)) := by
  induction front with
  | nil => exact fun _ _ => rfl
  | cons index front ih =>
    intro reader s
    rw [List.cons_append, run_readEach_cons, run_readEach_cons, ih]
    rfl

/-- No run of reads breaks what is true of the reader. -/
theorem Kept.readEach (indices : List Nat) : ∀ {reader : PartitionReader} (_ : Kept shards reader) (s : σ),
    Kept shards ((readEach indices reader).run handler s).1.2 := by
  induction indices with
  | nil => exact fun h _ => h
  | cons index indices ih =>
    intro reader h s
    rw [run_readEach_cons]
    exact ih (h.read index s).1 _

/-- Numbers of the shard being read go to it. -/
theorem run_readEach_shard (passed rest : List ShardReader) (base count : Nat) :
    ∀ (first : Nat) (shard : ShardReader) (s : σ), first + count ≤ shard.readCount →
      (readEach (List.range' (base + first) count) ⟨passed, shard :: rest, base⟩).run handler s =
        (let reads := (ShardReader.readEach (List.range' first count) shard).run handler s
         ((reads.1.1, ⟨passed, reads.1.2 :: rest, base⟩), reads.2)) := by
  induction count with
  | zero => exact fun _ _ _ _ => rfl
  | succ count ih =>
    intro first shard s h
    have hread : read ⟨passed, shard :: rest, base⟩ (base + first) = do
        let (outcome, shard) ← shard.read first
        return (outcome, ⟨passed, shard :: rest, base⟩) := by
      rw [read, if_neg (by dsimp only; omega), advance, Nat.add_sub_cancel_left, if_pos (by omega)]
    rw [List.range'_succ, List.range'_succ, run_readEach_cons, hread, Program.run_bind, Nat.add_assoc]
    dsimp only [Program.pure_eq_done, Program.run_done]
    rw [ih (first + 1) _ _ (by rw [ShardReader.readCount_read]; omega), ShardReader.readEach, Program.run_bind]
    dsimp only
    rw [Program.run_bind]
    rfl

/-- The next number behind the shard being read passes it. -/
theorem read_behind (passed rest : List ShardReader) (shard : ShardReader) {base index : Nat}
    (h : base + shard.readCount ≤ index) :
    read ⟨passed, shard :: rest, base⟩ index =
      read ⟨passed ++ [shard.close], rest, base + shard.readCount⟩ index := by
  rw [read, read, if_neg (by dsimp only; omega), if_neg (by dsimp only; omega)]
  dsimp only
  rw [advance, if_neg (by omega)]

/-- **Reading in order reads out every shard**, one after another, and then meets the end. -/
theorem run_readEach_range (ahead : List ShardReader) :
    ∀ (passed : List ShardReader) (base : Nat) (s : σ),
      (readEach (List.range' base (total ahead + 1)) ⟨passed, ahead, base⟩).run handler s =
        (let out := (ShardReader.readOut ahead).run handler s
         ((out.1.1 ++ [.ok none], ⟨passed ++ out.1.2, [], base + total ahead⟩), out.2)) := by
  induction ahead with
  | nil =>
    intro passed base s
    rw [ShardReader.total_nil, List.range'_one, run_readEach_cons, read, if_neg (lt_irrefl base), advance,
      ShardReader.readOut]
    dsimp only [Program.pure_eq_done, Program.run_done]
    rw [List.append_nil]
    rfl
  | cons shard ahead ih =>
    intro passed base s
    have hshard : (readEach (List.range' base shard.readCount) ⟨passed, shard :: ahead, base⟩).run handler s = _ :=
      run_readEach_shard passed ahead base shard.readCount 0 shard s (by omega)
    rw [← List.range_eq_range'] at hshard
    rw [ShardReader.total_cons, Nat.add_assoc, ← List.range'_append_1, run_readEach_append, hshard]
    dsimp only
    -- The first number behind the shard passes it, as it has become by then.
    have hcount : ((ShardReader.readEach (List.range shard.readCount) shard).run handler s).1.2.readCount = _ :=
      ShardReader.readCount_readEach _ shard s
    rw [List.range'_succ, readEach, read_behind _ _ _ (by rw [hcount]), ← readEach, ← List.range'_succ, hcount,
      ih, ShardReader.run_readOut_cons]
    dsimp only
    rw [List.append_assoc, List.append_assoc, Nat.add_assoc]
    rfl

/-! ## Numbers, exactly -/

/-- **How a reader of some shards stands, and what it makes of a number**, for a storage that answers as
`handler` does. -/
structure Numbered (handler : Handler σ) (shards : List ShardReader) (reader : PartitionReader)
    (index : Nat) : Prop where
  /-- They are the same shards, but for the handles. -/
  same : reader.shards.map ShardReader.close = shards.map ShardReader.close
  counts : reader.readCounts = shards.map ShardReader.readCount
  base : reader.base = (reader.readCounts.take reader.shardIndex).sum
  /-- A number in front of the base is refused, and nothing changes. -/
  refused : index < reader.base →
    reader.read index = return (.error (.segmentOutOfOrder index reader.base), reader)
  /-- A number below the total is of one shard, -/
  falls : index < reader.readCount → ∃! j, InShard reader.shards index j
  /-- which answers, and becomes the one being read whatever it answers. -/
  answered : ∀ j, InShard reader.shards index j → reader.base ≤ index → reader.shardIndex ≤ j ∧
    (∀ shard, (reader.movedTo j shard).shardIndex = j) ∧ ∃ shard, reader.shards[j]? = some shard ∧
      reader.read index = do
        let (outcome, shard) ← shard.read (index - start reader.shards j)
        return (outcome, reader.movedTo j shard)
  /-- From the total on is the end, with every shard passed. -/
  ended : reader.readCount ≤ index → reader.read index = return (.ok none, reader.finished)
  finished : reader.finished.shardIndex = shards.length
  /-- A base is only taken off numbers that are not below it. -/
  inRange : reader.base ≤ index →
    advanceChecked index reader.passed reader.base reader.ahead = some (reader.read index)
  /-- The reader never goes back. -/
  forward : ∀ s : σ, reader.shardIndex ≤ ((reader.read index).run handler s).1.2.shardIndex

theorem Kept.numbered (h : Kept shards reader) (handler : Handler σ) (index : Nat) :
    Numbered handler shards reader index := by
  have hcounts : reader.readCounts = shards.map ShardReader.readCount := by
    have := congrArg (List.map ShardReader.readCount) h.same
    rwa [List.map_map, List.map_map] at this
  have hlength : reader.shards.length = shards.length := by
    have := congrArg List.length h.same
    rwa [List.length_map, List.length_map] at this
  have hle : reader.base ≤ reader.readCount := by
    rw [readCount_eq, h.placed]
    exact Nat.le_add_right _ _
  refine
    { same := h.same
      counts := hcounts
      base := ?_
      refused := fun hlt => by rw [PartitionReader.read, if_pos hlt]
      falls := fun hlt => ?_
      answered := fun j hj hbase => ?_
      ended := fun hend => ?_
      finished := ?_
      inRange := fun hbase => ?_
      forward := fun s => (h.read index s).2 }
  · rw [h.base, ← ShardReader.start_congr h.same, start, total, List.map_take]
    rfl
  · rw [readCount_eq_total] at hlt
    obtain ⟨j, hj⟩ := ShardReader.exists_inShard hlt
    exact ⟨j, hj, fun i hi => hi.unique hj⟩
  -- A read by number falls into one shard, so of the ways a read can go only one is left in each of these cases.
  · have hmoved (shard : ShardReader) : (reader.movedTo j shard).shardIndex = j := by
      obtain ⟨front, found, rest, hsplit, rfl, -, -⟩ := hj.split
      rw [PartitionReader.movedTo, shardIndex, List.length_map, hsplit, List.take_left]
    rcases read_cases h index with ⟨hlt, -⟩ | ⟨-, front, shard, rest, hsplit, hin, hfront, hrun⟩ | ⟨hend, -, -⟩
    · omega
    · cases hin.unique hj
      exact ⟨hfront, hmoved, shard, by rw [hsplit, List.getElem?_append_right le_rfl, Nat.sub_self]; rfl, hrun⟩
    · obtain ⟨front, found, rest, hsplit, -, hfront, hlt⟩ := hj.split
      rw [hsplit, ShardReader.total_append, ShardReader.total_cons] at hend
      omega
  · rw [readCount_eq_total] at hend
    rcases read_cases h index with ⟨hlt, -⟩ | ⟨-, front, shard, rest, hsplit, hin, -, -⟩ | ⟨-, -, hrun⟩
    · rw [readCount_eq_total] at hle
      omega
    · obtain ⟨front, found, rest, hsplit, -, hfront, hlt⟩ := hin.split
      rw [hsplit, ShardReader.total_append, ShardReader.total_cons] at hend
      omega
    · exact hrun
  · rw [PartitionReader.finished, shardIndex, List.length_map, hlength]
  · rw [advanceChecked_eq index reader.ahead reader.passed hbase, PartitionReader.read, if_neg (by omega)]

/-- **Reads are answered by their numbers, and the reader only moves forward.** After any reads, failed ones
included, the next one is refused, made by the one shard that its number falls into, or met with the end;
and the reads in order are the reads of every shard in order, up to the first that meets the end. -/
theorem read_by_number (handler : Handler σ) (shards : List ShardReader) (s : σ) :
    (∀ (before : List Nat) (index : Nat),
      Numbered handler shards ((readEach before (ofShards shards)).run handler s).1.2 index) ∧
    (let out := (ShardReader.readOut shards).run handler s
     (readEach (List.range (total shards + 1)) (ofShards shards)).run handler s =
        ((out.1.1 ++ [.ok none], ⟨out.1.2, [], total shards⟩), out.2) ∧
      out.1.1.length = total shards ∧ ∀ answer ∈ out.1.1, answer ≠ .ok none) := by
  refine ⟨fun before index => ((kept_ofShards shards).readEach before s).numbered handler index, ?_,
    ShardReader.readOut_answers shards s⟩
  rw [List.range_eq_range', ofShards, run_readEach_range, Nat.zero_add]
  rfl

end PartitionReader

end BlockShuffle
