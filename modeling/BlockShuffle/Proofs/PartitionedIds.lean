import Mathlib
import BlockShuffle.PartitionedIds
import BlockShuffle.Proofs.BlockId
import BlockShuffle.Proofs.IdSet

/-!
# What is under which partition

Each operation on sets by partition is said here by what it leaves under every partition (`mem_under_file_iff` and
its siblings). That takes no assumption, since the operations do not look into ids.

An id names its partition, and `IsFiled` says that all ids are under the partition they name. This is what makes the
sets by partition and the plain set of all ids two views of one thing: an id that is anywhere (`Has`) is under one
partition only, and it is known which (`IsFiled.mem_under_iff`). It is also what makes `remove` do what its callers
mean by it. They know the id and look under the partition it names; if it were under another one as well, it would
still be there afterwards (`IsFiled.has_remove_iff`).

The size of a whole is the sum over all partitions there can be, most of which have no ids (`count_eq_sum`). That holds
of any sets, and says nothing about ids that are under two partitions: these count twice on both sides.
-/

set_option autoImplicit false

namespace BlockShuffle

/-- The partition of an id fits where partitions are numbered with 32 bits. -/
theorem BlockId.toUInt32_partition_eq_iff {id : BlockId} {partition : UInt32} :
    id.partition.toUInt32 = partition ↔ id.partition = partition.toUInt64 := by
  have hlt : id.partition.toNat < 2 ^ 32 := by
    rw [toNat_partition]
    omega
  rw [← UInt32.toNat_inj, ← UInt64.toNat_inj, UInt64.toNat_toUInt32, UInt32.toNat_toUInt64, Nat.mod_eq_of_lt hlt]

namespace PartitionedIds

variable {sets more : PartitionedIds} {partition other : UInt32} {ids : IdSet} {raw id : UInt64}

/-! ## Partition by partition -/

theorem under_insert : under (sets.insert partition ids) other =
    if partition = other then ids else sets.under other := by
  simp only [under, Std.ExtTreeMap.getD_insert, Std.LawfulEqCmp.compare_eq_iff_eq]

@[simp] theorem under_empty : under ∅ partition = ∅ := Std.ExtTreeMap.getD_empty

/-- A set that is replaced by one with more in it. -/
theorem mem_under_insert_iff {added : Prop} (h : id ∈ ids ↔ id ∈ sets.under partition ∨ added) :
    id ∈ under (sets.insert partition ids) other ↔ id ∈ sets.under other ∨ (other = partition ∧ added) := by
  rw [under_insert]
  split
  · rename_i heq
    rw [h, heq]
    simp
  · rename_i hne
    simp [Ne.symm hne]

theorem mem_under_file_iff :
    id ∈ (sets.file partition raw).under other ↔ id ∈ sets.under other ∨ (other = partition ∧ id = raw) :=
  mem_under_insert_iff (by rw [IdSet.mem_insert_iff, or_comm])

theorem mem_under_fileAll_iff :
    id ∈ (sets.fileAll partition ids).under other ↔ id ∈ sets.under other ∨ (other = partition ∧ id ∈ ids) :=
  mem_under_insert_iff Std.ExtTreeSet.mem_union_iff

theorem mem_under_remove_iff :
    id ∈ (sets.remove partition raw).under other ↔ id ∈ sets.under other ∧ ¬ (other = partition ∧ id = raw) := by
  rw [remove, under, under, Std.ExtTreeMap.getD_modify]
  simp only [Std.LawfulEqCmp.compare_eq_iff_eq]
  split
  · rename_i heq
    subst heq
    rw [Std.ExtTreeMap.getD_eq_getD_getElem?]
    cases sets[partition]? with
    | none => simp
    | some ids =>
      show id ∈ ids.erase raw ↔ id ∈ ids ∧ _
      rw [IdSet.mem_erase_iff]
      simp [eq_comm]
  · rename_i hne
    simp [Ne.symm hne]

/-- The ids of a partition are those of its entry. -/
theorem mem_under_iff_exists (sets : PartitionedIds) :
    id ∈ sets.under partition ↔ ∃ ids, (partition, ids) ∈ sets.toList ∧ id ∈ ids := by
  simp only [Std.ExtTreeMap.mem_toList_iff_getElem?_eq_some]
  rw [under, Std.ExtTreeMap.getD_eq_getD_getElem?]
  cases sets[partition]? with
  | none => simp
  | some ids => simp

theorem mem_under_merge_iff :
    id ∈ (sets.merge more).under partition ↔ id ∈ sets.under partition ∨ id ∈ more.under partition := by
  rw [merge, Std.ExtTreeMap.foldl_eq_foldl_toList, mem_under_iff_exists more]
  -- By the sets that are put in. One that is empty and left out would not have added an id.
  induction more.toList generalizing sets with
  | nil => simp
  | cons entry rest ih =>
    obtain ⟨key, ids⟩ := entry
    rw [List.foldl_cons, ih]
    have hentry : id ∈ (if ids.isEmpty then sets else sets.fileAll key ids).under partition ↔
        id ∈ sets.under partition ∨ (partition = key ∧ id ∈ ids) := by
      split
      · rename_i hempty
        have hnot := IdSet.isEmpty_iff_forall_not_mem.mp hempty id
        simp [hnot]
      · exact mem_under_fileAll_iff
    rw [hentry, or_assoc]
    simp only [List.mem_cons, Prod.mk.injEq, or_and_right, exists_or, and_assoc, exists_and_left, exists_eq_left]

/-- **All ids, counted by partition.** -/
theorem count_eq_sum (sets : PartitionedIds) : sets.count = ∑ partition : UInt32, (sets.under partition).size := by
  have hnodup : (sets.toList.map Prod.fst).Nodup := by
    rw [List.Nodup, List.pairwise_map]
    exact sets.distinct_keys_toList.imp fun h heq => h (Std.LawfulEqCmp.compare_eq_iff_eq.mpr heq)
  have hunder : ∀ partition ids, (partition, ids) ∈ sets.toList → sets.under partition = ids := by
    intro partition ids hentry
    rw [Std.ExtTreeMap.mem_toList_iff_getElem?_eq_some] at hentry
    rw [under, Std.ExtTreeMap.getD_eq_getD_getElem?, hentry, Option.getD_some]
  have hcount : sets.count = ((sets.toList.map Prod.fst).map fun partition => (sets.under partition).size).sum := by
    rw [List.map_map]
    refine congrArg List.sum (List.map_congr_left fun (partition, ids) hentry => ?_)
    rw [Function.comp_apply, hunder partition ids hentry]
  rw [hcount, ← List.sum_toFinset _ hnodup]
  -- A partition without a set adds nothing to the sum.
  refine Finset.sum_subset (Finset.subset_univ _) fun partition _ hnot => ?_
  rw [← Std.ExtTreeSet.eq_empty_iff_size_eq_zero, Std.ExtTreeSet.eq_empty_iff_forall_not_mem]
  intro raw hraw
  obtain ⟨ids, hentry, -⟩ := (mem_under_iff_exists sets).mp hraw
  exact hnot (List.mem_toFinset.mpr (List.mem_map_of_mem hentry))

/-! ## Ids under the partition they name -/

/-- The id is under some partition. -/
def Has (sets : PartitionedIds) (raw : UInt64) : Prop := ∃ partition, raw ∈ sets.under partition

/-- Every id is under the partition it names. -/
def IsFiled (sets : PartitionedIds) : Prop :=
  ∀ partition, ∀ raw ∈ sets.under partition, (BlockId.mk raw).partition.toUInt32 = partition

theorem isFiled_empty : IsFiled ∅ := by
  intro partition raw hraw
  rw [under_empty] at hraw
  exact absurd hraw Std.ExtTreeSet.not_mem_empty

theorem not_has_empty : ¬ Has ∅ raw := by
  rintro ⟨partition, hraw⟩
  rw [under_empty] at hraw
  exact absurd hraw Std.ExtTreeSet.not_mem_empty

/-- **An id that is anywhere is under the partition it names, and under no other.** -/
theorem IsFiled.mem_under_iff (h : sets.IsFiled) :
    raw ∈ sets.under partition ↔ sets.Has raw ∧ (BlockId.mk raw).partition = partition.toUInt64 := by
  rw [← BlockId.toUInt32_partition_eq_iff]
  constructor
  · intro hraw
    exact ⟨⟨partition, hraw⟩, h partition raw hraw⟩
  · rintro ⟨⟨other, hraw⟩, rfl⟩
    rw [h other raw hraw]
    exact hraw

theorem IsFiled.file (h : sets.IsFiled) (hpartition : (BlockId.mk raw).partition.toUInt32 = partition) :
    (sets.file partition raw).IsFiled := by
  intro other id hid
  rcases mem_under_file_iff.mp hid with hid | ⟨rfl, rfl⟩
  · exact h other id hid
  · exact hpartition

theorem IsFiled.remove (h : sets.IsFiled) : (sets.remove partition raw).IsFiled :=
  fun other id hid => h other id (mem_under_remove_iff.mp hid).1

theorem IsFiled.merge (h : sets.IsFiled) (hmore : more.IsFiled) : (sets.merge more).IsFiled := by
  intro partition raw hraw
  rcases mem_under_merge_iff.mp hraw with hraw | hraw
  · exact h partition raw hraw
  · exact hmore partition raw hraw

theorem has_file_iff : (sets.file partition raw).Has id ↔ sets.Has id ∨ id = raw := by
  simp only [Has, mem_under_file_iff, exists_or, exists_eq_left]

/-- An id that is removed under the partition it names is gone. -/
theorem IsFiled.has_remove_iff (h : sets.IsFiled) (hpartition : (BlockId.mk raw).partition.toUInt32 = partition) :
    (sets.remove partition raw).Has id ↔ sets.Has id ∧ id ≠ raw := by
  constructor
  · rintro ⟨other, hid⟩
    obtain ⟨hkept, hnot⟩ := mem_under_remove_iff.mp hid
    refine ⟨⟨other, hkept⟩, ?_⟩
    rintro rfl
    exact hnot ⟨(h other id hkept).symm.trans hpartition, rfl⟩
  · rintro ⟨⟨other, hid⟩, hne⟩
    exact ⟨other, mem_under_remove_iff.mpr ⟨hid, fun heq => hne heq.2⟩⟩

theorem has_merge_iff : (sets.merge more).Has id ↔ sets.Has id ∨ more.Has id := by
  simp only [Has, mem_under_merge_iff, exists_or]

end PartitionedIds

end BlockShuffle
