import Mathlib
import BlockShuffle.Proofs.Reading.Cursor
import BlockShuffle.Proofs.Storage.Flaky

/-!
# Reads that fail and are made again

A read of a partition may pass shards, open a data file and then fail. All of that stays: the cursor stands at
the shard that the read falls into, and the handle is kept. None of it changes what the read comes to when it is
made again, because that depends on the planned reads of all shards and on the storage only (`gives`), and not on
where the cursor is, as long as it is not too far (`Level`).

And it gets easier each time. A read fails for the last failure it meets, so with every failing read there are
fewer failures ahead of the call that failed, or one data file less to open (`Comes`).

The storage is one that offers what it has as often as it is asked, between failures of which there are finitely
many for each call. How many there still are is a number (`budget`), which goes down with each failure, and it
is the reason why reading again comes to an end. Nothing is assumed of the failures' kinds: whether they may
pass or not, a retried call meets some of them at once, and the rest later.

Only one reader is considered, and what it is compared with is a function of its shards. That another reader,
which met no failures, comes to the same is the next step up (`Proofs/Delivery/Resuming`).
-/

set_option autoImplicit false

namespace BlockShuffle

open Storage Program

variable {σ α : Type} {handler : Handler σ} {good : σ → Prop} {budget : σ → Nat} {source : Source}

/-- What something comes to that is expected to answer a value: the value, or an error. Work is left over
afterwards, not more than before, and behind an error either less of it or less of the budget. -/
def Comes (budget : σ → Nat) (work work' : Nat) (s s' : σ) (expected : Option α) (answer : Except Error α) :
    Prop :=
  work' ≤ work ∧ ((∃ value, expected = some value ∧ answer = .ok value) ∨
    ∃ error, answer = .error error ∧ (expected ≠ none → work' < work ∨ budget s' < budget s))

/-- Work that was there before and is not done. -/
theorem Comes.add_right {work work' : Nat} {s s' : σ} {expected : Option α} {answer : Except Error α}
    (h : Comes budget work work' s s' expected answer) (more : Nat) :
    Comes budget (work + more) (work' + more) s s' expected answer := by
  refine ⟨Nat.add_le_add_right h.1 more, h.2.imp_right ?_⟩
  rintro ⟨error, herror, hless⟩
  exact ⟨error, herror, fun hne => (hless hne).imp_left fun hwork => Nat.add_lt_add_right hwork more⟩

/-- Work that was there before and is done on the way. -/
theorem Comes.add_left {work work' : Nat} {s s' : σ} {expected : Option α} {answer : Except Error α}
    (h : Comes budget work work' s s' expected answer) (more : Nat) :
    Comes budget (more + work) work' s s' expected answer := by
  refine ⟨Nat.le_add_left_of_le h.1, h.2.imp_right ?_⟩
  rintro ⟨error, herror, hless⟩
  exact ⟨error, herror, fun hne => (hless hne).imp_left fun hwork => Nat.lt_add_left more hwork⟩

/-! ## Shards -/

namespace ShardReader

/-- The handle that a shard has is the one that opening its data file answers. -/
def Handled (source : Source) (shard : ShardReader) : Prop :=
  ∀ reader, shard.data = some reader → source.reader shard.files.data = some reader

/-- The batch of a read. -/
def gives (source : Source) (shard : ShardReader) (index : Nat) : Option Batch := do
  let planned ← shard.reads[index]?
  let reader ← source.reader shard.files.data
  let buffer ← source.bytes reader planned.offset planned.length
  return ⟨buffer, planned.slices⟩

/-- Data files left to open. -/
def unopened (shard : ShardReader) : Nat := if shard.data.isSome then 0 else 1

variable {shard : ShardReader} {index : Nat}

@[simp] theorem gives_close (shard : ShardReader) : shard.close.gives source = shard.gives source := rfl

theorem handled_of_unread (h : shard.data = none) : shard.Handled source := by
  intro reader hreader
  rw [h] at hreader
  cases hreader

theorem openData_comes (hdraws : Draws handler good budget source) (h : shard.Handled source) {s : σ}
    (hs : good s) {answer : Except RetryError Reader} {s' : σ}
    (hrun : shard.openData.run handler s = (answer, s')) :
    good s' ∧ ((∃ reader, source.reader shard.files.data = some reader ∧ answer = .ok reader ∧
        (shard.data = none ∨ s' = s)) ∨
      ∃ error, answer = .error error ∧
        (source.reader shard.files.data ≠ none → budget s' < budget s)) := by
  rw [openData] at hrun
  cases hdata : shard.data with
  | some reader =>
    rw [hdata] at hrun
    cases hrun
    exact ⟨hs, Or.inl ⟨reader, h reader hdata, rfl, Or.inr rfl⟩⟩
  | none =>
    rw [hdata] at hrun
    dsimp only at hrun
    obtain ⟨hgood, hcases⟩ :=
      tries_retried hdraws shard.retryPolicy (hdraws.openRead shard.files.data) s hs
    rw [hrun] at hgood hcases
    refine ⟨hgood, hcases.imp_left ?_⟩
    rintro ⟨reader, hreader, hok⟩
    exact ⟨reader, hreader, hok, Or.inl rfl⟩

theorem read_comes (hdraws : Draws handler good budget source) (h : shard.Handled source)
    (hindex : index < shard.readCount) {s : σ} (hs : good s) {answer : Except Error (Option Batch)}
    {after : ShardReader} {s' : σ} (hrun : (shard.read index).run handler s = ((answer, after), s')) :
    good s' ∧ after.Handled source ∧
      Comes budget shard.unopened after.unopened s s' ((shard.gives source index).map some) answer := by
  have hplanned : shard.reads[index]? = some shard.reads[index] := Array.getElem?_eq_getElem hindex
  rw [ShardReader.read, hplanned] at hrun
  dsimp only at hrun
  rw [run_bind] at hrun
  rcases hopen : shard.openData.run handler s with ⟨opened, s₁⟩
  rw [hopen] at hrun
  obtain ⟨hgood, ⟨reader, hreader, rfl, hsame⟩ | ⟨error, rfl, hcost⟩⟩ := openData_comes hdraws h hs hopen
  · dsimp only at hrun
    rw [run_bind] at hrun
    obtain ⟨hgood', hcases⟩ := tries_retried hdraws shard.retryPolicy
      (hdraws.readAt reader shard.reads[index].offset shard.reads[index].length) s₁ hgood
    have hhandled : Handled source { shard with data := some reader } := by
      rintro _ ⟨⟩
      exact hreader
    have hgives : shard.gives source index =
        (source.bytes reader shard.reads[index].offset shard.reads[index].length).map
          fun buffer => ⟨buffer, shard.reads[index].slices⟩ := by
      rw [gives, hplanned]
      simp only [Option.bind_eq_bind, Option.bind_some, hreader]
      cases source.bytes reader shard.reads[index].offset shard.reads[index].length <;> rfl
    rcases hcases with ⟨buffer, hbuffer, hok⟩ | ⟨error, herror, hcost⟩
    · rw [hok] at hrun
      cases hrun
      refine ⟨hgood', hhandled, Nat.zero_le _, Or.inl ⟨_, ?_, rfl⟩⟩
      rw [hgives, hbuffer]
      rfl
    · rw [herror] at hrun
      cases hrun
      refine ⟨hgood', hhandled, Nat.zero_le _, Or.inr ⟨_, rfl, fun hne => ?_⟩⟩
      -- If the handle is new there is less to open; otherwise opening has cost nothing.
      rcases hsame with hnone | rfl
      · left
        rw [unopened, unopened, hnone]
        exact Nat.one_pos
      · right
        apply hcost
        rintro hbuffer
        rw [hgives, hbuffer] at hne
        exact hne rfl
  · cases hrun
    refine ⟨hgood, h, Nat.le_refl _, Or.inr ⟨_, rfl, fun hne => Or.inr (hcost ?_)⟩⟩
    intro hreader
    apply hne
    rw [gives, hplanned, hreader]
    rfl

end ShardReader

/-! ## Partitions -/

namespace PartitionReader

/-- What a read of some shards comes to. -/
def gives (source : Source) : List ShardReader → Nat → Option (Option Batch)
  | [], _ => some none
  | shard :: rest, index =>
    if index < shard.readCount then (shard.gives source index).map some
    else gives source rest (index - shard.readCount)

def unopened (shards : List ShardReader) : Nat := (shards.map ShardReader.unopened).sum

/-- The cursor is not past a read, and every handle in front of it is the right one. -/
structure Level (source : Source) (reader : PartitionReader) (index : Nat) : Prop where
  placed : reader.Placed
  base_le : reader.base ≤ index
  handled : ∀ shard ∈ reader.ahead, shard.Handled source

variable {reader after : PartitionReader} {index : Nat}

theorem Level.mono {later : Nat} (h : Level source reader index) (hle : index ≤ later) :
    Level source reader later :=
  ⟨h.placed, h.base_le.trans hle, h.handled⟩

theorem level_ofShards {shards : List ShardReader} (h : ∀ shard ∈ shards, shard.data = none) :
    Level source (ofShards shards) index :=
  ⟨placed_ofShards shards, Nat.zero_le _, fun shard hs => ShardReader.handled_of_unread (h shard hs)⟩

theorem gives_append {front rest : List ShardReader} (h : ShardReader.total front ≤ index) :
    gives source (front ++ rest) index = gives source rest (index - ShardReader.total front) := by
  induction front generalizing index with
  | nil => rfl
  | cons shard front ih =>
    rw [ShardReader.total_cons] at h ⊢
    rw [List.cons_append, gives, if_neg (by omega), ih (by omega), Nat.sub_sub]

/-- The stream does not end in front of the last read. -/
theorem gives_ne_end {shards : List ShardReader} (h : index < ShardReader.total shards) :
    gives source shards index ≠ some none := by
  induction shards generalizing index with
  | nil => exact absurd h (Nat.not_lt_zero index)
  | cons shard rest ih =>
    rw [ShardReader.total_cons] at h
    rw [gives]
    split
    · intro hend
      obtain ⟨batch, -, hbatch⟩ := Option.map_eq_some_iff.mp hend
      cases hbatch
    · exact ih (by omega)

/-- Every read of every shard is a read of the partition. -/
theorem exists_gives_of_mem {shards : List ShardReader} {shard : ShardReader} (hshard : shard ∈ shards)
    (h : index < shard.readCount) :
    ∃ k, k < ShardReader.total shards ∧ gives source shards k = (shard.gives source index).map some := by
  obtain ⟨front, rest, rfl⟩ := List.append_of_mem hshard
  refine ⟨ShardReader.total front + index, ?_, ?_⟩
  · rw [ShardReader.total_append, ShardReader.total_cons]
    omega
  · rw [gives_append (Nat.le_add_right _ _), Nat.add_sub_cancel_left, gives, if_pos h]

theorem gives_map_close (shards : List ShardReader) :
    gives source (shards.map ShardReader.close) index = gives source shards index := by
  induction shards generalizing index with
  | nil => rfl
  | cons shard shards ih =>
    rw [List.map_cons, gives, gives, ih, ShardReader.readCount_close, ShardReader.gives_close]

theorem advance_comes (hdraws : Draws handler good budget source) {ahead : List ShardReader} :
    ∀ {passed : List ShardReader} {base : Nat}, base ≤ index →
      (∀ shard ∈ ahead, shard.Handled source) → ∀ {s : σ}, good s →
      ∀ {answer : Except Error (Option Batch)} {s' : σ},
        (advance index passed base ahead).run handler s = ((answer, after), s') →
        good s' ∧ after.base ≤ index ∧ (∀ shard ∈ after.ahead, shard.Handled source) ∧
          after.shards.map ShardReader.close = (passed ++ ahead).map ShardReader.close ∧
          Comes budget (unopened ahead) (unopened after.ahead) s s' (gives source ahead (index - base))
            answer := by
  induction ahead with
  | nil =>
    intro passed base hbase h s hs answer s' hrun
    cases hrun
    exact ⟨hs, hbase, h, rfl, Nat.le_refl _, Or.inl ⟨none, rfl, rfl⟩⟩
  | cons shard rest ih =>
    intro passed base hbase h s hs answer s' hrun
    rw [List.forall_mem_cons] at h
    rw [advance] at hrun
    -- The same question decides where `advance` goes and where `gives` looks.
    by_cases hin : index - base < shard.readCount
    · rw [if_pos hin, run_bind] at hrun
      rcases hread : (shard.read (index - base)).run handler s with ⟨⟨outcome, read⟩, s₁⟩
      rw [hread] at hrun
      cases hrun
      obtain ⟨hgood, hhandled, hcomes⟩ := ShardReader.read_comes hdraws h.1 hin hs hread
      have hclose : read.close = shard.close := by
        rw [← ShardReader.close_read shard (index - base) s, hread]
      refine ⟨hgood, hbase, List.forall_mem_cons.mpr ⟨hhandled, h.2⟩, ?_, ?_⟩
      · rw [shards, List.map_append, List.map_append, List.map_cons, List.map_cons, hclose]
      · rw [gives, if_pos hin]
        exact hcomes.add_right (unopened rest)
    · rw [if_neg hin] at hrun
      obtain ⟨hgood, hbase', hhandled, hshards, hcomes⟩ := ih (by omega) h.2 hs hrun
      refine ⟨hgood, hbase', hhandled, ?_, ?_⟩
      · rw [hshards]
        simp [ShardReader.close]
      · rw [gives, if_neg hin, Nat.sub_sub]
        exact hcomes.add_left shard.unopened

/-- **A read comes to what it always comes to**, and the cursor does not pass it. -/
theorem read_comes (hdraws : Draws handler good budget source) (h : Level source reader index) {s : σ}
    (hs : good s) {answer : Except Error (Option Batch)} {s' : σ}
    (hrun : (reader.read index).run handler s = ((answer, after), s')) :
    good s' ∧ Level source after index ∧
      after.shards.map ShardReader.close = reader.shards.map ShardReader.close ∧
      Comes budget (unopened reader.ahead) (unopened after.ahead) s s' (gives source reader.shards index)
        answer := by
  obtain ⟨hplaced, -⟩ := placed_read h.placed hrun
  have hbase := h.base_le
  rw [PartitionReader.read, if_neg (by omega)] at hrun
  obtain ⟨hgood, hbase', hhandled, hshards, hcomes⟩ := advance_comes hdraws h.base_le h.handled hs hrun
  refine ⟨hgood, ⟨hplaced, hbase', hhandled⟩, hshards, ?_⟩
  have hpassed : ShardReader.total reader.passed = reader.base := h.placed.symm
  rw [shards, gives_append (hpassed ▸ h.base_le), hpassed]
  exact hcomes

/-- A read in a run that goes on: the cursor stays in front of it, no shard is lost, and what reads come to stays. -/
theorem yields_read_gives (hdraws : Draws handler good budget source) (h : Level source reader index) :
    (reader.read index).Yields handler good fun result =>
      Level source result.2 index ∧ result.2.readCount = reader.readCount ∧
      (∀ k, gives source result.2.shards k = gives source reader.shards k) ∧
      ((∃ value, gives source reader.shards index = some value ∧ result.1 = .ok value) ∨
        ∃ error, result.1 = .error error) := by
  intro s hs
  rcases hrun : (reader.read index).run handler s with ⟨⟨answer, after⟩, s'⟩
  obtain ⟨hgood, hlevel, hshards, -, hanswer⟩ := read_comes hdraws h hs hrun
  refine ⟨⟨hlevel, (placed_read h.placed hrun).2, fun k => ?_, hanswer.imp_right ?_⟩, hgood⟩
  · rw [← gives_map_close, hshards, gives_map_close]
  · rintro ⟨error, herror, -⟩
    exact ⟨error, herror⟩

end PartitionReader

end BlockShuffle
