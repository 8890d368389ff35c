import Mathlib
import BlockShuffle.Proofs.Writing.Abandoned

/-!
# Which pair a writer opens

A writer without an open pair goes through the numbers from its own on, and opens the first pair that may be appended
to (`ShardFiles.Clean`). The search has no bound of its own but the last number. What bounds it is the memory: each
pair that is passed over has an index of its own there (`ShardWriter.stale_le`). A pair is only asked about by opening
its index, which would create the file; but a file that is not there is an index to stop at, and so the search leaves
every pair that it passes over as it is.

Whether there is a pair to stop at is not assumed. Numbers end with the word they are kept in, so a shard could
in principle have a stale index at every one of them, and then the search fails. `exists_clean_of_lt` says how
far that is away: it takes as many files as there are numbers left. The search itself is an induction on the
numbers left, upwards from the writer's own, and never turns back to a smaller one, even where that pair has
been mended since.

Nothing fails here. What a search comes to when opening a file fails is part of the writer's treatment of
failures (`Proofs/Writing/Shard`), where the pair that is found matters less than what is left of it.
-/

set_option autoImplicit false

namespace BlockShuffle

open Storage Program

/-! ## Pairs that may be appended to -/

/-- A pair that may be appended to: its index, if there is one, ends with a whole entry. -/
def ShardFiles.Clean (files : ShardFiles) (memory : Memory) : Prop :=
  ∀ bytes ∈ memory.bytes? files.index, bytes.length % IndexEntry.size = 0

instance (files : ShardFiles) (memory : Memory) : Decidable (files.Clean memory) :=
  inferInstanceAs (Decidable (∀ bytes ∈ memory.bytes? files.index, bytes.length % IndexEntry.size = 0))

namespace ShardFiles

variable {files : ShardFiles} {memory : Memory}

theorem Clean.position (h : files.Clean memory) :
    (Memory.openAppend files.index memory).1.position.toNat % IndexEntry.size = 0 := by
  rw [Memory.openAppend]
  cases hfind : memory.find? files.index with
  | some contents =>
    dsimp only
    rw [Contents.toNat_size, ← Contents.length_bytes]
    exact h _ (Memory.bytes?_of_find? hfind)
  | none => rfl

/-- The index of a pair that is passed over is there, and opening it changes nothing. -/
theorem exists_of_not_clean (h : ¬ files.Clean memory) : ∃ contents, memory.find? files.index = some contents ∧
    Memory.openAppend files.index memory = ({ path := files.index, position := contents.size }, memory) ∧
    contents.size.toNat % IndexEntry.size ≠ 0 := by
  rw [Clean] at h
  push Not at h
  obtain ⟨bytes, hbytes, hpart⟩ := h
  obtain ⟨contents, hfind, rfl⟩ := Option.map_eq_some_iff.mp hbytes
  refine ⟨contents, hfind, by rw [Memory.openAppend, hfind], ?_⟩
  rw [Contents.toNat_size, ← Contents.length_bytes]
  exact hpart

end ShardFiles

namespace ShardWriter

variable {writer : ShardWriter} {memory : Memory} {files : ShardFiles}

/-! ## The search -/

theorem run_openAppend (path : Path) (memory : Memory) : (Program.openAppend path).run Memory.handler memory =
    (.ok (Memory.openAppend path memory).1, (Memory.openAppend path memory).2) := rfl

/-- Both files of a pair, opened one after the other. -/
def opened (files : ShardFiles) (memory : Memory) : OpenPair × Memory :=
  let index := Memory.openAppend files.index memory
  let data := Memory.openAppend files.data index.2
  (⟨files, data.1, index.1⟩, data.2)

theorem run_openPairFrom_of_clean (left : Nat) {number : UInt32} (h : (writer.filesOf number).Clean memory) :
    (writer.openPairFrom left number).run Memory.handler memory =
      ((.ok (opened (writer.filesOf number) memory).1, number), (opened (writer.filesOf number) memory).2) := by
  rw [openPairFrom.eq_def, run_bind, run_openAppend]
  dsimp only
  rw [if_pos h.position]
  rfl

theorem run_openPairFrom_of_not_clean {left : Nat} {number : UInt32} (h : ¬ (writer.filesOf number).Clean memory) :
    (writer.openPairFrom (left + 1) number).run Memory.handler memory =
      (writer.openPairFrom left (number + 1)).run Memory.handler memory := by
  obtain ⟨contents, -, hopen, hpart⟩ := ShardFiles.exists_of_not_clean h
  rw [openPairFrom.eq_def, run_bind, run_openAppend, hopen]
  dsimp only
  rw [if_neg hpart]
  rfl

/-- **From any number on, the search comes to the first pair that may be appended to**, and opens that one in the
memory as it was. -/
theorem run_openPairFrom (left : Nat) : ∀ {number n : UInt32}, left + number.toNat + 1 = UInt32.size →
    number.toNat ≤ n.toNat → (writer.filesOf n).Clean memory →
    (∀ m : UInt32, number.toNat ≤ m.toNat → m.toNat < n.toNat → ¬ (writer.filesOf m).Clean memory) →
    (writer.openPairFrom left number).run Memory.handler memory =
      ((.ok (opened (writer.filesOf n) memory).1, n), (opened (writer.filesOf n) memory).2) := by
  induction left with
  | zero =>
    intro number n hleft hle hclean _
    have hn := n.toNat_lt
    obtain rfl : number = n := UInt32.toNat_inj.mp (by simp only [UInt32.size] at hleft; omega)
    exact run_openPairFrom_of_clean 0 hclean
  | succ left ih =>
    intro number n hleft hle hclean hstale
    rcases Nat.eq_or_lt_of_le hle with heq | hlt
    · obtain rfl : number = n := UInt32.toNat_inj.mp heq
      exact run_openPairFrom_of_clean _ hclean
    · have hnext : (number + 1).toNat = number.toNat + 1 := by
        apply toNat_succ
        rintro rfl
        have hlast : lastNumber.toNat = UInt32.size - 1 := rfl
        omega
      rw [run_openPairFrom_of_not_clean (hstale number le_rfl hlt)]
      exact ih (by omega) (by omega) hclean fun m hm => hstale m (by omega)

/-! ## The end of it -/

/-- **No more pairs are passed over than there are files**: each has an index of its own. -/
theorem stale_le (hname : isShardName writer.shard = true) {first stop : Nat} (hstop : stop ≤ UInt32.size)
    (hstale : ∀ m : UInt32, first ≤ m.toNat → m.toNat < stop → ¬ (writer.filesOf m).Clean memory) :
    stop - first ≤ memory.files.length := by
  let index (k : Nat) : List Component := (writer.filesOf (UInt32.ofNat (first + k))).index.components
  have hnumber : ∀ k < stop - first, (UInt32.ofNat (first + k)).toNat = first + k :=
    fun k hk => UInt32.toNat_ofNat_of_lt (by omega)
  have hnodup : ((List.range (stop - first)).map index).Nodup := by
    apply List.nodup_range.map_on
    intro j hj k hk heq
    have hsame := congrArg UInt32.toNat ((apart_filesOf hname).index_inj heq)
    rw [hnumber j (List.mem_range.mp hj), hnumber k (List.mem_range.mp hk)] at hsame
    omega
  have hthere : (List.range (stop - first)).map index ⊆ memory.paths.map Path.components := by
    intro components hmem
    obtain ⟨k, hk, rfl⟩ := List.mem_map.mp hmem
    rw [List.mem_range] at hk
    have hk' := hnumber k hk
    obtain ⟨contents, hfind, -⟩ := ShardFiles.exists_of_not_clean
      (hstale (UInt32.ofNat (first + k)) (by omega) (by omega))
    obtain ⟨stored, hstored, hsame⟩ := Memory.exists_mem_paths hfind
    exact List.mem_map.mpr ⟨stored, hstored, hsame⟩
  have hle := (hnodup.subperm hthere).length_le
  rwa [List.length_map, List.length_range, List.length_map, Memory.paths, List.length_map] at hle

/-- The first pair from the number of the writer on that may be appended to. -/
def FirstClean (writer : ShardWriter) (memory : Memory) (n : UInt32) : Prop :=
  IsLeast {m | writer.number ≤ m ∧ (writer.filesOf m).Clean memory} n

/-- **The search succeeds where more numbers are left than there are files.** -/
theorem exists_clean_of_lt (hname : isShardName writer.shard = true)
    (h : writer.number.toNat + memory.files.length + 1 ≤ UInt32.size) :
    ∃ n, writer.number ≤ n ∧ (writer.filesOf n).Clean memory := by
  by_contra hnone
  push Not at hnone
  have hle := stale_le hname h fun m hm _ => hnone m (UInt32.le_iff_toNat_le.mpr hm)
  omega

/-- If there is a pair to stop at, there is a first one. -/
theorem exists_firstClean (h : ∃ n, writer.number ≤ n ∧ (writer.filesOf n).Clean memory) :
    ∃ n, writer.FirstClean memory n := by
  classical
  obtain ⟨n, hle, hclean⟩ := h
  have hsome : ∃ k, ∃ n : UInt32, n.toNat = k ∧ writer.number ≤ n ∧ (writer.filesOf n).Clean memory :=
    ⟨n.toNat, n, rfl, hle, hclean⟩
  obtain ⟨first, hfirst, hmem⟩ := Nat.find_spec hsome
  refine ⟨first, hmem, fun other hother => ?_⟩
  rw [UInt32.le_iff_toNat_le, hfirst]
  exact Nat.find_min' hsome ⟨other, rfl, hother⟩

/-- What opening pair `n` answers, and what it leaves. -/
structure Opens (writer : ShardWriter) (memory : Memory) (n : UInt32)
    (result : (Except IoError OpenPair × UInt32) × Memory) : Prop where
  /-- Both files are open, at the ends that they have now. -/
  opened : ∃ data index : Contents,
    result.2.find? (writer.filesOf n).data = some data ∧ result.2.find? (writer.filesOf n).index = some index ∧
    result.1 = (.ok {
      files := writer.filesOf n
      data := { path := (writer.filesOf n).data, position := data.size }
      index := { path := (writer.filesOf n).index, position := index.size } }, n)
  /-- What was there is as it was. Of what was not, those two are there now, and empty. -/
  held : ∀ path, result.2.find? path = (memory.find? path).or
    (if (writer.filesOf n).index.sameAs path || (writer.filesOf n).data.sameAs path then some .empty else none)
  listed : ∀ path, path ∈ result.2.paths ↔ path ∈ memory.paths ∨
    memory.find? path = none ∧ (path = (writer.filesOf n).index ∨ path = (writer.filesOf n).data)
  /-- The pairs that were passed over are as they were, each with what it had and what it lacked. -/
  passed : ∀ m, writer.number ≤ m → m < n →
    result.2.find? (writer.filesOf m).data = memory.find? (writer.filesOf m).data ∧
    result.2.find? (writer.filesOf m).index = memory.find? (writer.filesOf m).index
  bounded : n.toNat - writer.number.toNat ≤ memory.files.length

theorem find?_opened (files : ShardFiles) (memory : Memory) (path : Path) :
    (opened files memory).2.find? path = (memory.find? path).or
      (if files.index.sameAs path || files.data.sameAs path then some .empty else none) := by
  change (Memory.openAppend files.data (Memory.openAppend files.index memory).2).2.find? path = _
  rw [Memory.find?_openAppend, Memory.find?_openAppend, Option.or_assoc]
  congr 1
  cases files.index.sameAs path <;> cases files.data.sameAs path <;> rfl

theorem mem_paths_opened {memory : Memory} (hne : files.data.components ≠ files.index.components) (path : Path) :
    path ∈ (opened files memory).2.paths ↔
      path ∈ memory.paths ∨ memory.find? path = none ∧ (path = files.index ∨ path = files.data) := by
  change path ∈ (Memory.openAppend files.data (Memory.openAppend files.index memory).2).2.paths ↔ _
  rw [Memory.mem_paths_openAppend, Memory.mem_paths_openAppend, Memory.find?_openAppend_of_ne hne.symm]
  constructor
  · rintro ((h | ⟨hnone, rfl⟩) | ⟨hnone, rfl⟩)
    · exact Or.inl h
    · exact Or.inr ⟨hnone, Or.inl rfl⟩
    · exact Or.inr ⟨hnone, Or.inr rfl⟩
  · rintro (h | ⟨hnone, rfl | rfl⟩)
    · exact Or.inl (Or.inl h)
    · exact Or.inl (Or.inr ⟨hnone, rfl⟩)
    · exact Or.inr ⟨hnone, rfl⟩

/-- Both appenders are at the ends of their files. -/
theorem positions_opened (memory : Memory) (hne : files.data.components ≠ files.index.components) :
    ∃ data index : Contents, (opened files memory).2.find? files.data = some data ∧
      (opened files memory).2.find? files.index = some index ∧
      (opened files memory).1 = {
        files
        data := { path := files.data, position := data.size }
        index := { path := files.index, position := index.size } } := by
  obtain ⟨index, hindex, hopenIndex⟩ := Memory.openAppend_eq files.index memory
  obtain ⟨data, hdata, hopenData⟩ := Memory.openAppend_eq files.data (Memory.openAppend files.index memory).2
  refine ⟨data, index, hdata, ?_, ?_⟩
  · exact (Memory.find?_openAppend_of_ne hne _).trans hindex
  · rw [opened, hopenIndex, hopenData]

/-- **A writer opens the first pair that it may append to**, and touches no other. -/
theorem first_clean_pair_opened (hname : isShardName writer.shard = true) (hpair : writer.pair = none)
    (hsearch : ∃ n, writer.number ≤ n ∧ (writer.filesOf n).Clean memory) :
    ∃ n, writer.FirstClean memory n ∧ writer.Opens memory n (writer.openPair.run Memory.handler memory) := by
  have hapart := apart_filesOf hname
  obtain ⟨n, hfirst⟩ := exists_firstClean hsearch
  have hle : writer.number.toNat ≤ n.toNat := UInt32.le_iff_toNat_le.mp hfirst.1.1
  have hstale : ∀ m : UInt32, writer.number.toNat ≤ m.toNat → m.toNat < n.toNat →
      ¬ (writer.filesOf m).Clean memory := by
    intro m hm hlt hclean
    have hmin := UInt32.le_iff_toNat_le.mp (hfirst.2 ⟨UInt32.le_iff_toNat_le.mpr hm, hclean⟩)
    omega
  -- All pairs in front of the first clean one are stale, so the search walks past them and stops there.
  have hrun : writer.openPair.run Memory.handler memory =
      ((.ok (opened (writer.filesOf n) memory).1, n), (opened (writer.filesOf n) memory).2) := by
    have hnumber := writer.number.toNat_lt
    rw [openPair, hpair]
    exact run_openPairFrom _ (by simp only [UInt32.size]; omega) hle hfirst.1.2 hstale
  refine ⟨n, hfirst, ?_⟩
  rw [hrun]
  refine
    { opened := ?_
      held := find?_opened _ _
      listed := mem_paths_opened (hapart.data_ne_index n n)
      passed := fun m hm hlt => ?_
      bounded := stale_le hname (Nat.le_of_lt n.toNat_lt) hstale }
  · obtain ⟨data, index, hdata, hindex, heq⟩ := positions_opened memory (hapart.data_ne_index n n)
    exact ⟨data, index, hdata, hindex, by rw [heq]⟩
  · have hne : n ≠ m := (UInt32.ne_of_lt hlt).symm
    have hother {path : Path} (hindex : (writer.filesOf n).index.components ≠ path.components)
        (hdata : (writer.filesOf n).data.components ≠ path.components) :
        (opened (writer.filesOf n) memory).2.find? path = memory.find? path :=
      (Memory.find?_openAppend_of_ne hdata _).trans (Memory.find?_openAppend_of_ne hindex _)
    constructor
    · exact hother (hapart.data_ne_index m n).symm fun heq => hne (hapart.data_inj heq)
    · exact hother (fun heq => hne (hapart.index_inj heq)) (hapart.data_ne_index n m)

/-- Pair zero was left with part of an entry, and of pair one there is the data file alone. -/
def behindStale : Memory :=
  (((Memory.mk []).insert (writerOfNew.filesOf 0).data ⟨.ofBytes [7], by decide⟩).insert
    (writerOfNew.filesOf 0).index ⟨.ofBytes (List.replicate 40 0), by decide⟩).insert
    (writerOfNew.filesOf 1).data ⟨.ofBytes [8, 9], by decide⟩

theorem first_clean_pair_opened_behindStale :
    let result := writerOfNew.openPair.run Memory.handler behindStale
    writerOfNew.FirstClean behindStale 1 ∧ writerOfNew.Opens behindStale 1 result ∧
      result.2.bytes? (writerOfNew.filesOf 1).index = some [] ∧
      result.2.bytes? (writerOfNew.filesOf 1).data = some [8, 9] := by
  intro result
  have hsearch : ∃ n, writerOfNew.number ≤ n ∧ (writerOfNew.filesOf n).Clean behindStale :=
    exists_clean_of_lt (by decide) (by decide +kernel)
  obtain ⟨n, hfirst, hopens⟩ := first_clean_pair_opened (by decide) rfl hsearch
  obtain ⟨_, _, -, -, hanswer⟩ := hopens.opened
  have hnumber : result.1.2 = 1 := by decide +kernel
  obtain rfl : n = 1 := by rw [← hnumber, hanswer]
  exact ⟨hfirst, hopens, by decide +kernel, by decide +kernel⟩

end ShardWriter

end BlockShuffle
