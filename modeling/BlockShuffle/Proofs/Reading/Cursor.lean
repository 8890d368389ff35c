import Mathlib
import BlockShuffle.PartitionReader

/-!
# The cursor of a partition reader

The reads of a partition are numbered through all of its shards. `advance` finds the shard that a number
falls into by passing shards and adding up their reads, so the one thing that has to hold of a reader is
that its base *is* that sum (`Placed`). It holds of a fresh reader and every read keeps it, whatever the
storage answers, together with how many reads there are (`placed_read`). What follows is
what callers rely on: a number behind the last read is answered with the end of the stream and no storage
call (`read_of_readCount_le`).

The base could be computed from the shards that were passed, and then there would be nothing to keep. It is a
field because the reader has it as one, and an error names it. That it is right is the invariant of this module,
and the reader's other lemmas take it as a hypothesis which is discharged once, for readers that were opened and
used.

Nothing here depends on what a storage answers or on whether a read succeeds: `advance_cases` has the shard and
the remaining number, and what the shard's read comes to is a parameter of everything behind it. What a read at
a number gives, and that there is one number for every read, is in `Proofs/Reading/Numbered`.
-/

set_option autoImplicit false

namespace BlockShuffle

open Storage

/-- The reads of some shards, together. -/
def ShardReader.total (shards : List ShardReader) : Nat := (shards.map ShardReader.readCount).sum

namespace ShardReader

@[simp] theorem total_nil : total [] = 0 := rfl

@[simp] theorem total_cons (shard : ShardReader) (shards : List ShardReader) :
    total (shard :: shards) = shard.readCount + total shards := rfl

@[simp] theorem total_append (shards others : List ShardReader) :
    total (shards ++ others) = total shards + total others := by
  rw [total, List.map_append, List.sum_append]
  rfl

@[simp] theorem readCount_close (shard : ShardReader) : shard.close.readCount = shard.readCount := rfl

@[simp] theorem total_map_close (shards : List ShardReader) :
    total (shards.map close) = total shards := by
  induction shards with
  | nil => rfl
  | cons shard shards ih => rw [List.map_cons, total_cons, total_cons, ih, readCount_close]

variable {σ : Type} {handler : Handler σ}

/-- A read changes nothing of a shard but the handle it holds. -/
theorem read_frame (shard : ShardReader) (index : Nat) (s : σ) :
    ((shard.read index).run handler s).1.2 =
      { shard with data := ((shard.read index).run handler s).1.2.data } := by
  unfold read
  cases shard.reads[index]? with
  | none => rfl
  | some planned =>
    dsimp only
    rw [Program.run_bind]
    cases (shard.openData.run handler s).1 with
    | error error => rfl
    | ok reader =>
      dsimp only
      rw [Program.run_bind]
      cases ((retried shard.retryPolicy
        (Program.readAt reader planned.offset planned.length)).run handler
          (shard.openData.run handler s).2).1 with
      | error error => rfl
      | ok buffer => rfl

/-- A read leaves the shard as it is, but for the handle. -/
theorem close_read (shard : ShardReader) (index : Nat) (s : σ) :
    ((shard.read index).run handler s).1.2.close = shard.close := by
  rw [read_frame]
  rfl

@[simp] theorem readCount_read (shard : ShardReader) (index : Nat) (s : σ) :
    ((shard.read index).run handler s).1.2.readCount = shard.readCount := by
  rw [read_frame]
  rfl

/-- A read that is planned does not find the end. -/
theorem read_ne_none {shard : ShardReader} {index : Nat} (h : index < shard.readCount) (s : σ) :
    ((shard.read index).run handler s).1.1 ≠ .ok none := by
  have hplanned : shard.reads[index]? = some shard.reads[index] := Array.getElem?_eq_getElem h
  rw [read, hplanned]
  dsimp only
  rw [Program.run_bind]
  cases (shard.openData.run handler s).1 with
  | error error => exact nofun
  | ok reader =>
    dsimp only
    rw [Program.run_bind]
    cases ((retried shard.retryPolicy
      (Program.readAt reader shard.reads[index].offset shard.reads[index].length)).run handler
        (shard.openData.run handler s).2).1 with
    | error error => exact nofun
    | ok buffer => exact nofun

end ShardReader

namespace PartitionReader

variable {σ : Type} {handler : Handler σ}

/-- The base is the number of reads in front of the shard being read. -/
def Placed (reader : PartitionReader) : Prop := reader.base = ShardReader.total reader.passed

theorem placed_ofShards (shards : List ShardReader) : (ofShards shards).Placed := rfl

theorem placed_close {reader : PartitionReader} (h : reader.Placed) : reader.close.Placed := by
  rw [Placed, close, ShardReader.total_map_close]
  exact h

theorem readCount_eq (reader : PartitionReader) :
    reader.readCount = ShardReader.total reader.passed + ShardReader.total reader.ahead := by
  rw [← ShardReader.total_append]
  rfl

theorem readCount_eq_total (reader : PartitionReader) : reader.readCount = ShardReader.total reader.shards := by
  rw [readCount_eq, shards, ShardReader.total_append]

@[simp] theorem readCount_close (reader : PartitionReader) :
    reader.close.readCount = reader.readCount := by
  rw [readCount_eq, readCount_eq, close, ShardReader.total_map_close, ShardReader.total_map_close]

/-- **Where a read goes.** Shards are passed and closed up to the one the number falls into, which makes
the read; or all are passed. -/
theorem advance_cases (index : Nat) (ahead : List ShardReader) :
    ∀ (passed : List ShardReader) (base : Nat), base ≤ index →
      (∃ front shard rest, ahead = front ++ shard :: rest ∧
        base + ShardReader.total front ≤ index ∧
        index - (base + ShardReader.total front) < shard.readCount ∧
        advance index passed base ahead = (do
          let (outcome, shard) ← shard.read (index - (base + ShardReader.total front))
          return (outcome, ⟨passed ++ front.map ShardReader.close, shard :: rest,
            base + ShardReader.total front⟩))) ∨
      (base + ShardReader.total ahead ≤ index ∧
        advance index passed base ahead = return (.ok none, ⟨passed ++ ahead.map ShardReader.close, [],
          base + ShardReader.total ahead⟩)) := by
  -- By the shards ahead: the base moves with each one that is passed, and the index stays.
  induction ahead with
  | nil =>
    intro passed base h
    refine Or.inr ⟨h, ?_⟩
    rw [advance, List.map_nil, List.append_nil]
    rfl
  | cons shard ahead ih =>
    intro passed base h
    by_cases hin : index - base < shard.readCount
    · refine Or.inl ⟨[], shard, ahead, rfl, h, hin, ?_⟩
      rw [advance, if_pos hin, List.map_nil, List.append_nil]
      rfl
    · have hbase : base + shard.readCount ≤ index := by omega
      rcases ih (passed ++ [shard.close]) (base + shard.readCount) hbase with
        ⟨front, found, rest, rfl, hle, hlt, hrun⟩ | ⟨hle, hrun⟩
      · refine Or.inl ⟨shard :: front, found, rest, rfl, ?_, ?_, ?_⟩
        · rw [ShardReader.total_cons, ← Nat.add_assoc]
          exact hle
        · rw [ShardReader.total_cons, ← Nat.add_assoc]
          exact hlt
        · rw [advance, if_neg hin, hrun, ShardReader.total_cons, Nat.add_assoc, List.append_assoc]
          rfl
      · refine Or.inr ⟨?_, ?_⟩
        · rw [ShardReader.total_cons, ← Nat.add_assoc]
          exact hle
        · rw [advance, if_neg hin, hrun, ShardReader.total_cons, Nat.add_assoc, List.append_assoc]
          rfl

/-- A read keeps the base in step with the shards passed, and loses none of them. -/
theorem placed_read {reader reader' : PartitionReader} (hp : reader.Placed) {index : Nat} {s s' : σ}
    {outcome : Except Error (Option Batch)}
    (h : (reader.read index).run handler s = ((outcome, reader'), s')) :
    reader'.Placed ∧ reader'.readCount = reader.readCount := by
  unfold read at h
  by_cases hlt : index < reader.base
  · rw [if_pos hlt] at h
    cases h
    exact ⟨hp, rfl⟩
  · rw [if_neg hlt] at h
    rw [Placed] at hp
    rcases advance_cases index reader.ahead reader.passed reader.base (by omega) with
      ⟨front, shard, rest, hahead, -, -, hrun⟩ | ⟨-, hrun⟩
    · rw [hrun, Program.run_bind] at h
      cases h
      refine ⟨?_, ?_⟩
      · rw [Placed, ShardReader.total_append, ShardReader.total_map_close, hp]
      · rw [readCount_eq reader, readCount_eq, hahead]
        simp only [ShardReader.total_append, ShardReader.total_cons, ShardReader.total_map_close,
          ShardReader.readCount_read]
        omega
    · rw [hrun] at h
      cases h
      refine ⟨?_, ?_⟩
      · rw [Placed, ShardReader.total_append, ShardReader.total_map_close, hp]
      · rw [readCount_eq reader, readCount_eq]
        simp only [ShardReader.total_append, ShardReader.total_map_close, ShardReader.total_nil]
        omega

/-- Behind the last read is the end of the stream, and storage is not asked. -/
theorem read_of_readCount_le {reader reader' : PartitionReader} (hp : reader.Placed) {index : Nat}
    (hle : reader.readCount ≤ index) {s s' : σ} {outcome : Except Error (Option Batch)}
    (h : (reader.read index).run handler s = ((outcome, reader'), s')) :
    outcome = .ok none ∧ s' = s := by
  rw [readCount_eq] at hle
  rw [Placed] at hp
  unfold read at h
  rw [if_neg (by omega)] at h
  rcases advance_cases index reader.ahead reader.passed reader.base (by omega) with
    ⟨front, shard, rest, hahead, -, hlt, -⟩ | ⟨-, hrun⟩
  · rw [hahead, ShardReader.total_append, ShardReader.total_cons] at hle
    omega
  · rw [hrun] at h
    cases h
    exact ⟨rfl, rfl⟩

/-- So a batch is the answer to one of the reads that there are. -/
theorem lt_readCount_of_batch {reader reader' : PartitionReader} (hp : reader.Placed) {index : Nat} {s s' : σ}
    {batch : Batch} (h : (reader.read index).run handler s = ((.ok (some batch), reader'), s')) :
    index < reader.readCount := by
  by_contra hle
  cases (read_of_readCount_le hp (Nat.not_lt.mp hle) h).1

/-- The end of the stream is nowhere else. -/
theorem readCount_le_of_none {reader reader' : PartitionReader} (hp : reader.Placed) {index : Nat} {s s' : σ}
    (h : (reader.read index).run handler s = ((.ok none, reader'), s')) : reader.readCount ≤ index := by
  rw [Placed] at hp
  unfold read at h
  by_cases hlt : index < reader.base
  · rw [if_pos hlt] at h
    cases h
  · rw [if_neg hlt] at h
    rcases advance_cases index reader.ahead reader.passed reader.base (by omega) with
      ⟨front, shard, rest, -, -, hin, hrun⟩ | ⟨hle, -⟩
    · rw [hrun, Program.run_bind] at h
      have hnone := congrArg (fun result => result.1.1) h
      exact absurd hnone (ShardReader.read_ne_none hin s)
    · rw [readCount_eq]
      omega

/-- Make reads one after another, and list what they answer. -/
def readEach : List Nat → PartitionReader → Program (List (Except Error (Option Batch)) × PartitionReader)
  | [], reader => return ([], reader)
  | index :: rest, reader => do
    let (answer, reader) ← reader.read index
    let (answers, reader) ← readEach rest reader
    return (answer :: answers, reader)

end PartitionReader

end BlockShuffle
