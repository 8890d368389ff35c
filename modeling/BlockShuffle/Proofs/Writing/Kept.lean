import Mathlib
import BlockShuffle.Proofs.Writing.Batch

/-!
# What a failing writer keeps

A writer that meets failures leaves a trail of file pairs: abandoned ones, ones with half a payload or half
an entry, one it opened and never wrote to. `Keeps` is what is true of all of them at any moment. Every pair
is backed, nothing but the shard's own files was touched, and no entry that was ever in an index is gone.
It holds between any two storage calls, so it does not matter where a program was when a call failed.

On top of it, a batch that was written has each of its blocks in the pair that it joined (`Joins.stored`).
Whether a pair is new is not asked: a pair that an earlier writer left is appended to like one's own, if its
index ends with a whole entry.

`Keeps` compares two memories, the one at the start of a stretch and the one now, because that nothing is gone
can only be said of two. Starting from another stretch is transitivity. The shard's files are given as a
function from numbers, with a condition that they are all different, so nothing here depends on how paths are
made or on what the shard is called.

What is not kept is any order among the pairs. A writer may have used a number, another one may use it again,
and appends to its files are behind what is there; where the blocks of a batch are is said by the pair it joined
and by nothing before it.
-/

set_option autoImplicit false

namespace BlockShuffle

open Storage Program

/-! ## The pairs of a shard -/

/-- The files of a shard, by the number of the pair, are all different. -/
structure Apart (files : UInt32 → ShardFiles) : Prop where
  data_ne_index : ∀ n m, (files n).data.components ≠ (files m).index.components
  data_inj : ∀ {n m}, (files n).data.components = (files m).data.components → n = m
  index_inj : ∀ {n m}, (files n).index.components = (files m).index.components → n = m

/-- What was in memory at the start of a stretch of writing, and what is there now: the pairs of the shard
are backed, other files are untouched, and no entry is lost. -/
structure Keeps (files : UInt32 → ShardFiles) (allowed : Block → Prop) (start memory : Memory) :
    Prop where
  backed : ∀ n, Backed allowed (memory.bytes? (files n).data) (memory.bytes? (files n).index)
  frame : ∀ path : Path, (∀ n, path.components ≠ (files n).data.components) →
    (∀ n, path.components ≠ (files n).index.components) → memory.find? path = start.find? path
  listed : ∀ path ∈ memory.paths,
    path ∈ start.paths ∨ ∃ n, path = (files n).data ∨ path = (files n).index
  kept : ∀ path ∈ start.paths, path ∈ memory.paths
  entries : ∀ n, ∀ entry ∈ entriesOf (start.bytes? (files n).index),
    entry ∈ entriesOf (memory.bytes? (files n).index)

/-- An invariant that opening pairs leaves true, which makes the files that are missing. -/
def AllowsOpening (files : UInt32 → ShardFiles) (inv : Memory → Prop) : Prop :=
  ∀ n memory, inv memory →
    inv (Memory.openAppend (files n).index memory).2 ∧ inv (Memory.openAppend (files n).data memory).2

namespace Keeps

variable {files : UInt32 → ShardFiles} {allowed : Block → Prop} {start memory : Memory}

theorem refl (h : ∀ n, Backed allowed (start.bytes? (files n).data) (start.bytes? (files n).index)) :
    Keeps files allowed start start :=
  ⟨h, fun _ _ _ => rfl, fun _ hp => Or.inl hp, fun _ hp => hp, fun _ _ he => he⟩

/-- Bytes are put behind a data file, or it is made. -/
theorem insert_data (h : Keeps files allowed start memory) (hapart : Apart files) {n : UInt32}
    {contents : Contents} (hgrow : (memory.bytes? (files n).data).getD [] <+: contents.bytes) :
    Keeps files allowed start (memory.insert (files n).data contents) := by
  have hindex : ∀ m, (memory.insert (files n).data contents).bytes? (files m).index =
      memory.bytes? (files m).index :=
    fun m => Memory.bytes?_insert_of_ne (hapart.data_ne_index n m) _ _
  refine ⟨fun m => ?_, fun path hd hi => ?_, fun path hp => ?_, fun path hp => ?_, fun m entry he => ?_⟩
  · rw [hindex m]
    by_cases hm : n = m
    · subst hm
      rw [Memory.bytes?_insert_self]
      exact (h.backed n).append_data hgrow
    · rw [Memory.bytes?_insert_of_ne (fun heq => hm (hapart.data_inj heq))]
      exact h.backed m
  · rw [Memory.find?_insert_of_ne (hd n).symm]
    exact h.frame path hd hi
  · rcases Memory.mem_paths_of_insert hp with rfl | hp
    · exact Or.inr ⟨n, Or.inl rfl⟩
    · exact h.listed path hp
  · exact Memory.mem_paths_insert (h.kept path hp) _ _
  · rw [hindex m]
    exact h.entries m entry he

/-- An index is replaced by one that is backed and has lost nothing. -/
theorem insert_index (h : Keeps files allowed start memory) (hapart : Apart files) {n : UInt32}
    {contents : Contents} (hbacked : Backed allowed (memory.bytes? (files n).data) (some contents.bytes))
    (hentries : ∀ entry ∈ entriesOf (memory.bytes? (files n).index),
      entry ∈ entriesOf (some contents.bytes)) :
    Keeps files allowed start (memory.insert (files n).index contents) := by
  have hdata : ∀ m, (memory.insert (files n).index contents).bytes? (files m).data =
      memory.bytes? (files m).data :=
    fun m => Memory.bytes?_insert_of_ne (hapart.data_ne_index m n).symm _ _
  have hother : ∀ m, n ≠ m → (memory.insert (files n).index contents).bytes? (files m).index =
      memory.bytes? (files m).index :=
    fun m hm => Memory.bytes?_insert_of_ne (fun heq => hm (hapart.index_inj heq)) _ _
  -- One pair gets another index. Of the other pairs nothing moves, as no two share a path.
  refine ⟨fun m => ?_, fun path hd hi => ?_, fun path hp => ?_, fun path hp => ?_, fun m entry he => ?_⟩
  · rw [hdata m]
    by_cases hm : n = m
    · subst hm
      rw [Memory.bytes?_insert_self]
      exact hbacked
    · rw [hother m hm]
      exact h.backed m
  · rw [Memory.find?_insert_of_ne (hi n).symm]
    exact h.frame path hd hi
  · rcases Memory.mem_paths_of_insert hp with rfl | hp
    · exact Or.inr ⟨n, Or.inr rfl⟩
    · exact h.listed path hp
  · exact Memory.mem_paths_insert (h.kept path hp) _ _
  · by_cases hm : n = m
    · subst hm
      rw [Memory.bytes?_insert_self]
      exact hentries entry (h.entries n entry he)
    · rw [hother m hm]
      exact h.entries m entry he

theorem openAppend_data (h : Keeps files allowed start memory) (hapart : Apart files) (n : UInt32) :
    Keeps files allowed start (Memory.openAppend (files n).data memory).2 := by
  rw [Memory.openAppend]
  cases hfind : memory.find? (files n).data with
  | some contents => exact h
  | none =>
    apply h.insert_data hapart
    rw [Memory.bytes?, hfind]
    exact List.prefix_refl []

theorem openAppend_index (h : Keeps files allowed start memory) (hapart : Apart files) (n : UInt32) :
    Keeps files allowed start (Memory.openAppend (files n).index memory).2 := by
  rw [Memory.openAppend]
  cases hfind : memory.find? (files n).index with
  | some contents => exact h
  | none =>
    apply h.insert_index hapart
    · exact Backed.empty _ _
    · rw [Memory.bytes?, hfind]
      simp

theorem allowsOpening (hapart : Apart files) : AllowsOpening files (Keeps files allowed start) :=
  fun n _ h => ⟨h.openAppend_index hapart n, h.openAppend_data hapart n⟩

theorem allowsData (hapart : Apart files) (n : UInt32) :
    AllowsData (files n) (Keeps files allowed start) := by
  intro memory contents longer hkeeps hfind hgrow
  apply hkeeps.insert_data hapart
  rw [Memory.bytes?_of_find? hfind]
  exact hgrow

/-- **Entries of a batch, or any part of them, leave the pair backed.** -/
theorem allowsEntries (hapart : Apart files) {n : UInt32} {front index : Contents} {blocks : List Block}
    (hallowed : ∀ block ∈ blocks, allowed block) (hfits : ∀ block ∈ blocks, Fits block)
    (hbacked : Backed allowed (some front.bytes) (some index.bytes))
    (hwhole : index.bytes.length % IndexEntry.size = 0) :
    AllowsEntries (files n) front index blocks (Keeps files allowed start) := by
  intro memory longer index' count hkeeps hdata hlonger hindex hindex'
  have hsize : (front.bytes ++ payloads blocks).length < UInt64.size := by
    rw [← hlonger]
    exact longer.length_lt
  apply hkeeps.insert_index hapart
  · rw [Memory.bytes?_of_find? hdata, hlonger, hindex']
    exact hbacked.append_index hwhole hallowed hfits hsize count
  · rw [Memory.bytes?_of_find? hindex, hindex', entriesOf_append_take hwhole]
    intro entry he
    exact List.mem_append_left _ he

end Keeps

/-! ## Open pairs -/

section Pairs

variable {files : UInt32 → ShardFiles} {allowed : Block → Prop} {start memory : Memory}

/-- An open pair of a shard: it is on the files of some number. -/
def IsOpen (files : UInt32 → ShardFiles) (pair : OpenPair) (memory : Memory) : Prop :=
  ∃ n front index, pair.IsOn (files n) front index memory

theorem IsOpen.congr {pair : OpenPair} (h : IsOpen files pair start)
    (hsame : ∀ n, memory.find? (files n).data = start.find? (files n).data ∧
      memory.find? (files n).index = start.find? (files n).index) : IsOpen files pair memory := by
  obtain ⟨n, front, index, hfiles, hpath, hopened, hwhole⟩ := h
  obtain ⟨hdata, hindex⟩ := hsame n
  exact ⟨n, front, index, hfiles, hpath,
    ⟨hdata.trans hopened.data_eq, hindex.trans hopened.index_eq, hopened.path_eq, hopened.position_eq⟩,
    hwhole⟩

/-- Some pair of the shard has an entry of the block. -/
def Indexed (files : UInt32 → ShardFiles) (memory : Memory) (block : Block) : Prop :=
  ∃ n, ∃ entry ∈ entriesOf (memory.bytes? (files n).index), entry = OpenPair.entryAt entry.offset block

/-- Some pair of the shard has the block, entry and payload. -/
def Stored (files : UInt32 → ShardFiles) (memory : Memory) (block : Block) : Prop :=
  ∃ n, Held (memory.bytes? (files n).data) (memory.bytes? (files n).index) block

theorem Stored.indexed {block : Block} (h : Stored files memory block) : Indexed files memory block := by
  obtain ⟨n, data, -, entry, he, hbacks⟩ := h
  exact ⟨n, entry, he, hbacks.1⟩

/-- A batch is behind what a pair held before. -/
def Joins (files : ShardFiles) (blocks : List Block) (before memory : Memory) : Prop :=
  ∃ front index, before.bytes? files.data = some front ∧ before.bytes? files.index = some index ∧
    index.length % IndexEntry.size = 0 ∧ (front ++ payloads blocks).length < UInt64.size ∧
    memory.bytes? files.data = some (front ++ payloads blocks) ∧
    memory.bytes? files.index = some (index ++ IndexEntry.encodeAll (layOut front.length blocks))

theorem Joins.of_isOn {pair pair' : OpenPair} {n : UInt32} {blocks : List Block}
    {front index longer index' : Contents} (hon : pair.IsOn (files n) front index start)
    (hlonger : longer.bytes = front.bytes ++ payloads blocks)
    (hindex' : index'.bytes = index.bytes ++ IndexEntry.encodeAll (layOut front.length blocks))
    (hon' : pair'.IsOn (files n) longer index' memory) : Joins (files n) blocks start memory := by
  refine ⟨front.bytes, index.bytes, Memory.bytes?_of_find? hon.opened.data_eq,
    Memory.bytes?_of_find? hon.opened.index_eq, hon.whole, ?_, ?_, ?_⟩
  · rw [← hlonger]
    exact longer.length_lt
  · rw [← hlonger]
    exact Memory.bytes?_of_find? hon'.opened.data_eq
  · rw [Memory.bytes?_of_find? hon'.opened.index_eq, hindex']
    rfl

/-- **A batch that joined a pair is in the shard, block by block.** -/
theorem Joins.stored {n : UInt32} {blocks : List Block} (h : Joins (files n) blocks start memory)
    (hfits : ∀ block ∈ blocks, Fits block) : ∀ block ∈ blocks, Stored files memory block := by
  intro block hblock
  obtain ⟨front, index, -, -, hwhole, hsize, hdata, hindex⟩ := h
  obtain ⟨entry, he, hbacks⟩ :=
    (exists_backs_of_forall₂ (backs_layOut hfits hsize).1).2 block hblock
  refine ⟨n, front ++ payloads blocks, hdata, entry, ?_, hbacks⟩
  rw [hindex, entriesOf_append hwhole]
  exact List.mem_append_right _ he

end Pairs

end BlockShuffle
