import Mathlib
import BlockShuffle.Cli.Check

/-!
# Ranges tile the partitions

A range is the one of its first partition, a multiple of the width, and the listed ranges are those of the
multiples in front of the end (`mem_all_iff`). All of it is division: two partitions are in one range if they
have one quotient (`forPartition_eq_iff`). The last partition of a range is computed with 32 bits, so it is
right as long as no range reaches past them (`Room`); the last range may well reach past the last partition.

Ranges are compared as pairs of words, and a proof about them is one about naturals: `toNat_first` and
`toNat_last` leave the words behind, and only `toNat_last` has a condition. It cannot be dropped. Where a range
would reach past the last number its end wraps, and the listed range is then empty to `contains`, although its
directory exists and its partitions are read.

A width of zero acts as one in ranges and is refused in settings, so statements about ranges have no condition
on it and those about reading do. That every partition lies in one listed range and in no other (`Tiles`) is
said by the position in the list, which also gives the order in which `verify` goes through them.
-/

set_option autoImplicit false

namespace BlockShuffle

/-- Settings are in order if there is somewhere to read, the partition is one there is, and no limit is zero. -/
theorem ReadConfig.check_eq_ok_iff {config : ReadConfig} :
    config.check = .ok () ↔ config.basePaths ≠ [] ∧ config.partitionsPerRange ≠ 0 ∧
      config.partition < config.partitionCount ∧ 0 < config.entryLimit ∧ 0 < config.byteLimit := by
  rw [ReadConfig.check, ← UInt32.not_le, ne_eq, ← List.isEmpty_iff, Nat.pos_iff_ne_zero, Nat.pos_iff_ne_zero]
  split_ifs <;> simp_all

namespace PartitionRange

/-! ## Ranges as numbers -/

/-- How many partitions share a directory (zero acts as one). -/
def width (perRange : UInt32) : Nat := max perRange.toNat 1

variable {count perRange partition : UInt32} {range : PartitionRange}

theorem width_pos (perRange : UInt32) : 0 < width perRange := Nat.lt_of_lt_of_le Nat.zero_lt_one (Nat.le_max_right _ _)

theorem toNat_width (perRange : UInt32) : (if perRange = 0 then 1 else perRange).toNat = width perRange := by
  rw [width]
  split_ifs with h
  · rw [h]
    rfl
  · have hne : perRange.toNat ≠ 0 := fun hzero => h (UInt32.toNat_inj.mp hzero)
    omega

theorem toNat_first (partition perRange : UInt32) : (forPartition partition perRange).first.toNat =
    partition.toNat / width perRange * width perRange := by
  have hle := Nat.div_mul_le_self partition.toNat (width perRange)
  simp only [forPartition]
  rw [UInt32.toNat_mul, UInt32.toNat_div, toNat_width, Nat.mod_eq_of_lt (hle.trans_lt partition.toNat_lt)]

/-- A range ends in front of the first partition of the next, as far as numbers go. -/
theorem toNat_last (h : (forPartition partition perRange).first.toNat + width perRange < UInt32.size) :
    (forPartition partition perRange).last.toNat + 1 =
      (forPartition partition perRange).first.toNat + width perRange := by
  have hpos := width_pos perRange
  have hsum : ((forPartition partition perRange).first + (if perRange = 0 then 1 else perRange)).toNat =
      (forPartition partition perRange).first.toNat + width perRange := by
    rw [UInt32.toNat_add, toNat_width, Nat.mod_eq_of_lt h]
  have hlast : (forPartition partition perRange).last =
      (forPartition partition perRange).first + (if perRange = 0 then 1 else perRange) - 1 := rfl
  have hone : (1 : UInt32) ≤ (forPartition partition perRange).first + (if perRange = 0 then 1 else perRange) := by
    rw [UInt32.le_iff_toNat_le, hsum]
    change 1 ≤ _
    omega
  rw [hlast, UInt32.toNat_sub_of_le _ _ hone, hsum]
  change _ - 1 + 1 = _
  omega

theorem contains_iff : range.contains partition = true ↔
    range.first.toNat ≤ partition.toNat ∧ partition.toNat ≤ range.last.toNat := by
  rw [contains, Bool.and_eq_true, decide_eq_true_eq, decide_eq_true_eq, UInt32.le_iff_toNat_le,
    UInt32.le_iff_toNat_le]

/-- Partitions have one range if they are the same number of widths away from the start. -/
theorem forPartition_eq_iff {other : UInt32} : forPartition partition perRange = forPartition other perRange ↔
    partition.toNat / width perRange = other.toNat / width perRange := by
  constructor
  · intro h
    have hfirst := congrArg (fun range => range.first.toNat) h
    rw [toNat_first, toNat_first] at hfirst
    exact Nat.eq_of_mul_eq_mul_right (width_pos perRange) hfirst
  · intro h
    have hdiv : partition / (if perRange = 0 then 1 else perRange) =
        other / (if perRange = 0 then 1 else perRange) := by
      rw [← UInt32.toNat_inj, UInt32.toNat_div, UInt32.toNat_div, toNat_width, h]
    simp only [forPartition, hdiv]

/-- A range is the one of its first partition. -/
theorem forPartition_first (partition perRange : UInt32) :
    forPartition (forPartition partition perRange).first perRange = forPartition partition perRange := by
  rw [forPartition_eq_iff, toNat_first, Nat.mul_div_cancel _ (width_pos perRange)]

theorem contains_forPartition_iff {other : UInt32}
    (h : (forPartition other perRange).first.toNat + width perRange < UInt32.size) :
    (forPartition other perRange).contains partition = true ↔
      forPartition partition perRange = forPartition other perRange := by
  have hpos := width_pos perRange
  have hlast := toNat_last h
  rw [contains_iff, forPartition_eq_iff, Nat.div_eq_iff hpos]
  rw [toNat_first] at hlast ⊢
  omega

/-- The partitions of a range are as many as share a directory. -/
theorem card_contains (h : range.last.toNat + 1 = range.first.toNat + width perRange) :
    Nat.card {partition : UInt32 // range.contains partition = true} = width perRange := by
  have himage : UInt32.toNat '' {partition | range.contains partition = true} =
      Finset.Ico range.first.toNat (range.first.toNat + width perRange) := by
    ext number
    simp only [Set.mem_image, Set.mem_ofPred_eq, contains_iff, Finset.coe_Ico, Set.mem_Ico]
    constructor
    · rintro ⟨partition, hpartition, rfl⟩
      omega
    · intro hnumber
      have hsmall : range.last.toNat < UInt32.size := range.last.toNat_lt
      have hnat : (UInt32.ofNat number).toNat = number := UInt32.toNat_ofNat_of_lt (by omega)
      exact ⟨UInt32.ofNat number, by omega, hnat⟩
  have hinj : Function.Injective UInt32.toNat := fun _ _ => UInt32.toNat_inj.mp
  calc Nat.card {partition : UInt32 // range.contains partition = true}
      = (UInt32.toNat '' {partition | range.contains partition = true}).ncard :=
        (Set.ncard_image_of_injective _ hinj).symm
    _ = width perRange := by rw [himage, Set.ncard_coe_finset, Nat.card_Ico, Nat.add_sub_cancel_left]

/-! ## The ranges of a shuffle -/

/-- Range number `i`. -/
def nth (perRange : UInt32) (i : Nat) : PartitionRange := forPartition (UInt32.ofNat (i * width perRange)) perRange

/-- Ranges are listed while one starts in front of the end. -/
theorem lt_length_iff {i : Nat} : i < (all count perRange).length ↔ i * width perRange < count.toNat := by
  have hpos := width_pos perRange
  rw [all, List.length_map, List.length_range]
  change i < (count.toNat + width perRange - 1) / width perRange ↔ _
  rw [Nat.lt_div_iff_mul_lt hpos]
  omega

theorem getElem_all {i : Nat} (h : i < (all count perRange).length) : (all count perRange)[i] = nth perRange i := by
  rw [List.getElem_of_eq rfl]
  simp only [all, List.getElem_map, List.getElem_range]
  rfl

theorem toNat_nth {i : Nat} (h : i * width perRange < count.toNat) :
    (UInt32.ofNat (i * width perRange)).toNat = i * width perRange :=
  UInt32.toNat_ofNat_of_lt (h.trans count.toNat_lt)

theorem toNat_first_nth {i : Nat} (h : i * width perRange < count.toNat) :
    (nth perRange i).first.toNat = i * width perRange := by
  rw [nth, toNat_first, toNat_nth h, Nat.mul_div_cancel _ (width_pos perRange)]

/-- A range is listed if it is that of a partition. -/
theorem mem_all_iff : range ∈ all count perRange ↔
    ∃ partition, partition < count ∧ range = forPartition partition perRange := by
  have hpos := width_pos perRange
  constructor
  · intro h
    obtain ⟨i, hi, rfl⟩ := List.getElem_of_mem h
    rw [lt_length_iff] at hi
    refine ⟨UInt32.ofNat (i * width perRange), ?_, getElem_all _⟩
    rw [UInt32.lt_iff_toNat_lt, toNat_nth hi]
    exact hi
  · rintro ⟨partition, hlt, rfl⟩
    rw [UInt32.lt_iff_toNat_lt] at hlt
    have hle := Nat.div_mul_le_self partition.toNat (width perRange)
    have hi : partition.toNat / width perRange < (all count perRange).length := lt_length_iff.mpr (by omega)
    have hsame : (all count perRange)[partition.toNat / width perRange] = forPartition partition perRange := by
      rw [getElem_all, nth, forPartition_eq_iff, toNat_nth (lt_length_iff.mp hi), Nat.mul_div_cancel _ hpos]
    rw [← hsame]
    exact List.getElem_mem hi

/-! ## Side by side -/

/-- There are numbers for all ranges: none reaches the end of them. -/
def Room (count perRange : UInt32) : Prop :=
  ∀ range ∈ all count perRange, range.first.toNat + width perRange < UInt32.size

/-- Ranges that lie side by side, from the first partition on, with as many partitions in each. -/
structure Tiles (ranges : List PartitionRange) (width : Nat) : Prop where
  start : ∀ range, ranges.head? = some range → range.first = 0
  ascending : ranges.Pairwise fun range later => range.first < later.first
  adjacent : ranges.IsChain fun range next => next.first.toNat = range.last.toNat + 1
  disjoint : ranges.Pairwise fun range later =>
    ∀ partition, ¬ (range.contains partition = true ∧ later.contains partition = true)
  wide : ∀ range ∈ ranges, Nat.card {partition : UInt32 // range.contains partition = true} = width

theorem Room.toNat_last (h : Room count perRange) (hmem : range ∈ all count perRange) :
    range.last.toNat + 1 = range.first.toNat + width perRange := by
  have hroom := h range hmem
  obtain ⟨partition, -, rfl⟩ := mem_all_iff.mp hmem
  exact PartitionRange.toNat_last hroom

/-- A listed range is that of each partition in it. -/
theorem Room.contains_iff (h : Room count perRange) (hmem : range ∈ all count perRange) :
    range.contains partition = true ↔ range = forPartition partition perRange := by
  have hroom := h range hmem
  obtain ⟨other, -, rfl⟩ := mem_all_iff.mp hmem
  rw [contains_forPartition_iff hroom]
  exact eq_comm

/-- Range number `i` is from one multiple of the width to the next. -/
theorem Room.toNat_getElem (h : Room count perRange) {i : Nat} (hi : i < (all count perRange).length) :
    (all count perRange)[i].first.toNat = i * width perRange ∧
      (all count perRange)[i].last.toNat + 1 = (i + 1) * width perRange := by
  have hfirst : (all count perRange)[i].first.toNat = i * width perRange := by
    rw [getElem_all, toNat_first_nth (lt_length_iff.mp hi)]
  refine ⟨hfirst, ?_⟩
  rw [h.toNat_last (List.getElem_mem hi), hfirst, Nat.succ_mul]

theorem Room.apart (h : Room count perRange) :
    (all count perRange).Pairwise fun range later => range.last.toNat < later.first.toNat := by
  rw [List.pairwise_iff_getElem]
  intro i j hi hj hlt
  have hmul : (i + 1) * width perRange ≤ j * width perRange := Nat.mul_le_mul_right _ hlt
  have hrange := h.toNat_getElem hi
  have hlater := h.toNat_getElem hj
  omega

theorem Room.tiles (h : Room count perRange) : Tiles (all count perRange) (width perRange) where
  start range hhead := by
    rw [List.head?_eq_getElem?, List.getElem?_eq_some_iff] at hhead
    obtain ⟨hlength, rfl⟩ := hhead
    rw [← UInt32.toNat_inj, (h.toNat_getElem hlength).1, Nat.zero_mul]
    rfl
  ascending := by
    have hpos := width_pos perRange
    refine h.apart.imp_of_mem fun {range later} hrange _ hlt => ?_
    have hlast := h.toNat_last hrange
    rw [UInt32.lt_iff_toNat_lt]
    omega
  adjacent := by
    rw [List.isChain_iff_getElem]
    intro i hi
    rw [(h.toNat_getElem hi).1, (h.toNat_getElem (by omega)).2]
  disjoint := by
    refine h.apart.imp fun {range later} hlt partition => ?_
    rw [PartitionRange.contains_iff, PartitionRange.contains_iff]
    omega
  wide range hrange := card_contains (h.toNat_last hrange)

/-! ## Reading a listed range -/

/-- The settings that a listed range is read with are the settings of that range. -/
theorem range_config {options : Cli.VerifyOptions} (hmem : range ∈ all options.partitions options.perRange) :
    (options.config range).range = range := by
  obtain ⟨partition, -, rfl⟩ := mem_all_iff.mp hmem
  exact forPartition_first partition options.perRange

/-- They are in order. -/
theorem check_config {options : Cli.VerifyOptions} (hper : options.perRange ≠ 0)
    (hmem : range ∈ all options.partitions options.perRange) : (options.config range).check = .ok () := by
  obtain ⟨partition, hlt, rfl⟩ := mem_all_iff.mp hmem
  have hle := Nat.div_mul_le_self partition.toNat (width options.perRange)
  have hfirst : (forPartition partition options.perRange).first < options.partitions := by
    rw [UInt32.lt_iff_toNat_lt] at hlt ⊢
    rw [toNat_first]
    omega
  refine ReadConfig.check_eq_ok_iff.mpr ⟨List.cons_ne_nil _ _, hper, hfirst, ?_, ?_⟩
  · show 0 < 1000
    decide
  · show 0 < 32 * 1024 * 1024
    decide

/-- **Ranges tile the partitions.** They lie side by side, each partition is in the one that is its own and in
no other, and none is listed for nothing. The settings that verification reads a listed range with are in
order, and are the settings of that range. -/
theorem ranges_tile_partitions {count perRange : UInt32} (hroom : Room count perRange) :
    Tiles (all count perRange) (width perRange) ∧
    (∀ partition, partition < count → forPartition partition perRange ∈ all count perRange ∧
      ∀ range ∈ all count perRange, range.contains partition = true ↔ range = forPartition partition perRange) ∧
    (∀ range ∈ all count perRange, ∃ partition, partition < count ∧ range.contains partition = true) ∧
    (∀ partition other, partition < count → other < count →
      (forPartition partition perRange = forPartition other perRange ↔
        ∃ range ∈ all count perRange, range.contains partition = true ∧ range.contains other = true)) ∧
    ∀ (base : Path) (app : String) (shuffle : UInt32), perRange ≠ 0 → ∀ range ∈ all count perRange,
      let config := Cli.VerifyOptions.config ⟨base, app, shuffle, count, perRange⟩ range
      config.check = .ok () ∧ config.range = range := by
  refine ⟨hroom.tiles, ?_, ?_, ?_, ?_⟩
  · intro partition hlt
    exact ⟨mem_all_iff.mpr ⟨partition, hlt, rfl⟩, fun range => hroom.contains_iff⟩
  · intro range hmem
    obtain ⟨partition, hlt, heq⟩ := mem_all_iff.mp hmem
    exact ⟨partition, hlt, (hroom.contains_iff hmem).mpr heq⟩
  · intro partition other hpartition hother
    constructor
    · intro hsame
      have hmem : forPartition partition perRange ∈ all count perRange := mem_all_iff.mpr ⟨partition, hpartition, rfl⟩
      exact ⟨_, hmem, (hroom.contains_iff hmem).mpr rfl, (hroom.contains_iff hmem).mpr hsame⟩
    · rintro ⟨range, hmem, hcontains, hcontains'⟩
      exact ((hroom.contains_iff hmem).mp hcontains).symm.trans ((hroom.contains_iff hmem).mp hcontains')
  · intro base app shuffle hper range hmem
    exact ⟨check_config hper hmem, range_config hmem⟩

/-- Ten partitions, four to a directory: the last range goes past the end. -/
theorem ranges_tile_partitions_tenByFour :
    all 10 4 = [⟨0, 3⟩, ⟨4, 7⟩, ⟨8, 11⟩] ∧ Room 10 4 ∧ Tiles (all 10 4) 4 ∧ forPartition 9 4 = ⟨8, 11⟩ ∧
      (Cli.VerifyOptions.config ⟨.ofText "b", "app", 0, 10, 4⟩ ⟨8, 11⟩).check = .ok () := by
  have hlist : all 10 4 = [⟨0, 3⟩, ⟨4, 7⟩, ⟨8, 11⟩] := by decide
  have hroom : Room 10 4 := by
    unfold Room
    decide
  obtain ⟨htiles, hown, -, -, hconfig⟩ := ranges_tile_partitions hroom
  have hlast : ⟨8, 11⟩ ∈ all 10 4 := by
    rw [hlist]
    simp
  refine ⟨hlist, hroom, htiles, ?_, (hconfig _ _ _ (by decide) _ hlast).1⟩
  exact (((hown 9 (by decide)).2 _ hlast).mp (by decide)).symm

end PartitionRange

end BlockShuffle
