import Mathlib
import BlockShuffle.BlockId
import BlockShuffle.Proofs.Results

/-!
# Block ids as numbers

A word is read by division: each field is a quotient, cut to its width. The fields of an id that was packed
do not overlap, so the word is their weighted sum (`pack_eq_ok_iff`) and every field comes back out of it.
Going the other way, the fields of any word add up to it but for its top bit (`toNat_raw_mod`). Words below
`2 ^ 63` and triples that fit are therefore the same thing, and a weighted sum with each digit below its
weight is ordered as its digits are, the first one counting most (`raw_lt_iff_of_pack`).

Shifts and masks are gone after the first section, where each field is a quotient modulo a power of two; all
that follows is arithmetic, and none of it would change if the fields were packed by multiplying. The top bit is
carried by every raw word and read by no field, so a word is not its fields and the bijection has to say which
words it is about. Two words that differ in it alone are different ids to anybody who compares words, as sets of
ids do.

The order is the reason for the sequence number being in front: sorted ids are sorted by the order in which an
attempt made its blocks. Nothing relies on it for being right. What relies on the rest, on ids that meet only
where their triples do, is all that is said about blocks being the same.
-/

set_option autoImplicit false

namespace BlockShuffle

theorem IdField.toNat_max (field : IdField) : field.max.toNat = 2 ^ field.bits - 1 := by
  cases field <;> rfl

namespace BlockId

/-! ## Reading fields -/

theorem toNat_sequence (id : BlockId) : id.sequence.toNat = id.raw.toNat / 2 ^ 45 % 2 ^ 18 := by
  rw [sequence, UInt64.toNat_and, IdField.toNat_max, IdField.bits, Nat.and_two_pow_sub_one_eq_mod,
    UInt64.toNat_shiftRight, Nat.shiftRight_eq_div_pow]
  rfl

theorem toNat_task (id : BlockId) : id.task.toNat = id.raw.toNat / 2 ^ 24 % 2 ^ 21 := by
  rw [task, UInt64.toNat_and, IdField.toNat_max, IdField.bits, Nat.and_two_pow_sub_one_eq_mod,
    UInt64.toNat_shiftRight, Nat.shiftRight_eq_div_pow]
  rfl

theorem toNat_partition (id : BlockId) : id.partition.toNat = id.raw.toNat % 2 ^ 24 := by
  rw [partition, UInt64.toNat_and, IdField.toNat_max, IdField.bits, Nat.and_two_pow_sub_one_eq_mod]

/-! ## Packing -/

theorem fit_eq_ok_iff {field : IdField} {value fitted : UInt64} :
    fit field value = .ok fitted ↔ value.toNat < 2 ^ field.bits ∧ fitted = value := by
  have hpos := Nat.two_pow_pos field.bits
  rw [fit]
  by_cases h : value ≤ field.max
  · have hle := UInt64.le_iff_toNat_le.mp h
    rw [IdField.toNat_max] at hle
    rw [if_pos h, Except.ok.injEq]
    constructor
    · intro heq
      exact ⟨by omega, heq.symm⟩
    · intro heq
      exact heq.2.symm
  · have hlt := mt UInt64.le_iff_toNat_le.mpr h
    rw [IdField.toNat_max] at hlt
    rw [if_neg h]
    constructor
    · intro heq
      cases heq
    · intro heq
      omega

theorem fit_eq_error_iff {field : IdField} {value : UInt64} {overflow : FieldOverflow} :
    fit field value = .error overflow ↔ 2 ^ field.bits ≤ value.toNat ∧ overflow = ⟨field, value⟩ := by
  by_cases h : value.toNat < 2 ^ field.bits
  · rw [fit_eq_ok_iff.mpr ⟨h, rfl⟩]
    constructor
    · intro heq
      cases heq
    · intro heq
      omega
  · have hwide : fit field value = .error ⟨field, value⟩ := by
      rw [fit, if_neg]
      intro hle
      have hfits : fit field value = .ok value := by rw [fit, if_pos hle]
      exact h (fit_eq_ok_iff.mp hfits).1
    rw [hwide, Except.error.injEq]
    constructor
    · intro heq
      exact ⟨Nat.not_lt.mp h, heq.symm⟩
    · intro heq
      exact heq.2.symm

/-- Fields that fit lie side by side in the word. -/
theorem toNat_word {sequence task partition : UInt64} (hs : sequence.toNat < 2 ^ 18)
    (ht : task.toNat < 2 ^ 21) (hp : partition.toNat < 2 ^ 24) :
    ((sequence <<< 45) ||| (task <<< 24) ||| partition).toNat =
      sequence.toNat * 2 ^ 45 + task.toNat * 2 ^ 24 + partition.toNat := by
  have hsequence : (sequence <<< 45).toNat = (sequence.toNat * 2 ^ 21) <<< 24 := by
    rw [UInt64.toNat_shiftLeft, Nat.shiftLeft_eq, Nat.shiftLeft_eq]
    change sequence.toNat * 2 ^ 45 % 2 ^ 64 = _
    omega
  have htask : (task <<< 24).toNat = task.toNat <<< 24 := by
    rw [UInt64.toNat_shiftLeft, Nat.shiftLeft_eq]
    change task.toNat * 2 ^ 24 % 2 ^ 64 = _
    rw [Nat.mod_eq_of_lt (by omega), Nat.shiftLeft_eq]
  rw [UInt64.toNat_or, UInt64.toNat_or, hsequence, htask, ← Nat.shiftLeft_or_distrib,
    ← Nat.shiftLeft_eq, ← Nat.shiftLeft_add_eq_or_of_lt ht, ← Nat.shiftLeft_add_eq_or_of_lt hp,
    Nat.shiftLeft_eq, Nat.shiftLeft_eq]
  omega

/-- **Packing succeeds exactly where every field fits**, and the word is their weighted sum. -/
theorem pack_eq_ok_iff {sequence task partition : UInt64} {id : BlockId} :
    pack sequence task partition = .ok id ↔ sequence.toNat < 2 ^ 18 ∧ task.toNat < 2 ^ 21 ∧
      partition.toNat < 2 ^ 24 ∧
      id.raw.toNat = sequence.toNat * 2 ^ 45 + task.toNat * 2 ^ 24 + partition.toNat := by
  simp only [pack, bind_eq_ok_iff, fit_eq_ok_iff]
  constructor
  · rintro ⟨_, ⟨hs, rfl⟩, _, ⟨ht, rfl⟩, _, ⟨hp, rfl⟩, h⟩
    cases h
    exact ⟨hs, ht, hp, toNat_word hs ht hp⟩
  · rintro ⟨hs, ht, hp, hraw⟩
    refine ⟨_, ⟨hs, rfl⟩, _, ⟨ht, rfl⟩, _, ⟨hp, rfl⟩, ?_⟩
    rw [← toNat_word hs ht hp] at hraw
    rw [← UInt64.toNat_inj.mp hraw]
    rfl

variable {sequence task partition : UInt64} {id : BlockId}

theorem sequence_of_pack (h : pack sequence task partition = .ok id) : id.sequence = sequence := by
  obtain ⟨hs, ht, hp, hraw⟩ := pack_eq_ok_iff.mp h
  apply UInt64.toNat_inj.mp
  rw [toNat_sequence, hraw]
  omega

theorem task_of_pack (h : pack sequence task partition = .ok id) : id.task = task := by
  obtain ⟨hs, ht, hp, hraw⟩ := pack_eq_ok_iff.mp h
  apply UInt64.toNat_inj.mp
  rw [toNat_task, hraw]
  omega

theorem partition_of_pack (h : pack sequence task partition = .ok id) : id.partition = partition := by
  obtain ⟨hs, ht, hp, hraw⟩ := pack_eq_ok_iff.mp h
  apply UInt64.toNat_inj.mp
  rw [toNat_partition, hraw]
  omega

/-! ## Both ways -/

/-- Three values within the widths of the fields they are for. -/
structure Fits (sequence task partition : UInt64) : Prop where
  sequence : sequence.toNat < 2 ^ 18
  task : task.toNat < 2 ^ 21
  partition : partition.toNat < 2 ^ 24

/-- The first field, in the order they are packed in, whose value has more bits than it. -/
inductive FirstTooWide (sequence task partition : UInt64) : FieldOverflow → Prop where
  | sequence (h : 2 ^ 18 ≤ sequence.toNat) : FirstTooWide sequence task partition ⟨.sequence, sequence⟩
  | task (hs : sequence.toNat < 2 ^ 18) (h : 2 ^ 21 ≤ task.toNat) :
      FirstTooWide sequence task partition ⟨.taskAttempt, task⟩
  | partition (hs : sequence.toNat < 2 ^ 18) (ht : task.toNat < 2 ^ 21) (h : 2 ^ 24 ≤ partition.toNat) :
      FirstTooWide sequence task partition ⟨.partition, partition⟩

theorem exists_pack_iff : (∃ id, pack sequence task partition = .ok id) ↔ Fits sequence task partition := by
  constructor
  · rintro ⟨id, h⟩
    obtain ⟨hs, ht, hp, -⟩ := pack_eq_ok_iff.mp h
    exact ⟨hs, ht, hp⟩
  · rintro ⟨hs, ht, hp⟩
    exact ⟨_, pack_eq_ok_iff.mpr ⟨hs, ht, hp, toNat_word hs ht hp⟩⟩

/-- **Packing fails at the first value that is too wide.** -/
theorem pack_eq_error_iff {overflow : FieldOverflow} :
    pack sequence task partition = .error overflow ↔ FirstTooWide sequence task partition overflow := by
  simp only [pack, bind_eq_error_iff, fit_eq_error_iff, fit_eq_ok_iff]
  constructor
  · rintro (⟨h, rfl⟩ | ⟨_, ⟨hs, rfl⟩, ⟨h, rfl⟩ | ⟨_, ⟨ht, rfl⟩, ⟨h, rfl⟩ | ⟨_, -, h⟩⟩⟩)
    · exact .sequence h
    · exact .task hs h
    · exact .partition hs ht h
    · cases h
  · rintro (h | ⟨hs, h⟩ | ⟨hs, ht, h⟩)
    · exact Or.inl ⟨h, rfl⟩
    · exact Or.inr ⟨_, ⟨hs, rfl⟩, Or.inl ⟨h, rfl⟩⟩
    · exact Or.inr ⟨_, ⟨hs, rfl⟩, Or.inr ⟨_, ⟨ht, rfl⟩, Or.inl ⟨h, rfl⟩⟩⟩

/-- What an id says, as one triple. -/
def fields (id : BlockId) : UInt64 × UInt64 × UInt64 := (id.sequence, id.task, id.partition)

/-- Whatever the word, its fields are within their widths. -/
theorem fits_fields (id : BlockId) : Fits id.sequence id.task id.partition where
  sequence := by
    rw [toNat_sequence]
    exact Nat.mod_lt _ (by decide)
  task := by
    rw [toNat_task]
    exact Nat.mod_lt _ (by decide)
  partition := by
    rw [toNat_partition]
    exact Nat.mod_lt _ (by decide)

/-- The weighted sum of the fields is the word without its top bit. -/
theorem toNat_raw_mod (id : BlockId) : id.raw.toNat % 2 ^ 63 =
    id.sequence.toNat * 2 ^ 45 + id.task.toNat * 2 ^ 24 + id.partition.toNat := by
  rw [toNat_sequence, toNat_task, toNat_partition]
  omega

/-- **The fields are all that an id says**, but for the top bit. -/
theorem fields_eq_iff {id other : BlockId} :
    id.fields = other.fields ↔ id.raw.toNat % 2 ^ 63 = other.raw.toNat % 2 ^ 63 := by
  obtain ⟨hs, ht, hp⟩ := id.fits_fields
  obtain ⟨hs', ht', hp'⟩ := other.fits_fields
  rw [fields, fields, Prod.mk.injEq, Prod.mk.injEq, ← UInt64.toNat_inj, ← UInt64.toNat_inj, ← UInt64.toNat_inj,
    toNat_raw_mod, toNat_raw_mod]
  omega

theorem raw_lt_of_pack (h : pack sequence task partition = .ok id) : id.raw.toNat < 2 ^ 63 := by
  obtain ⟨hs, ht, hp, hraw⟩ := pack_eq_ok_iff.mp h
  omega

theorem fields_of_pack (h : pack sequence task partition = .ok id) : id.fields = (sequence, task, partition) := by
  rw [fields, sequence_of_pack h, task_of_pack h, partition_of_pack h]

/-- An id without the top bit is packed from its fields. -/
theorem pack_fields (h : id.raw.toNat < 2 ^ 63) : pack id.sequence id.task id.partition = .ok id := by
  obtain ⟨hs, ht, hp⟩ := id.fits_fields
  have hraw := id.toNat_raw_mod
  rw [Nat.mod_eq_of_lt h] at hraw
  exact pack_eq_ok_iff.mpr ⟨hs, ht, hp, hraw⟩

/-! ## The order -/

section Order

variable {sequence' task' partition' : UInt64} {id' : BlockId}

/-- **Packed words are ordered as what they were packed from**, sequence first. -/
theorem raw_lt_iff_of_pack (h : pack sequence task partition = .ok id)
    (h' : pack sequence' task' partition' = .ok id') :
    id.raw < id'.raw ↔
      sequence < sequence' ∨ sequence = sequence' ∧ (task < task' ∨ task = task' ∧ partition < partition') := by
  obtain ⟨hs, ht, hp, hraw⟩ := pack_eq_ok_iff.mp h
  obtain ⟨hs', ht', hp', hraw'⟩ := pack_eq_ok_iff.mp h'
  rw [UInt64.lt_iff_toNat_lt, UInt64.lt_iff_toNat_lt, UInt64.lt_iff_toNat_lt, UInt64.lt_iff_toNat_lt,
    ← UInt64.toNat_inj, ← UInt64.toNat_inj]
  omega

theorem raw_eq_iff_of_pack (h : pack sequence task partition = .ok id)
    (h' : pack sequence' task' partition' = .ok id') :
    id.raw = id'.raw ↔ sequence = sequence' ∧ task = task' ∧ partition = partition' := by
  obtain ⟨hs, ht, hp, hraw⟩ := pack_eq_ok_iff.mp h
  obtain ⟨hs', ht', hp', hraw'⟩ := pack_eq_ok_iff.mp h'
  rw [← UInt64.toNat_inj, ← UInt64.toNat_inj, ← UInt64.toNat_inj, ← UInt64.toNat_inj]
  omega

end Order

/-- **Ids and triples are the same thing, in the same order.** Three values are packed where each is within
its field, or the first that is not is the error, and they are read back from the word. Each word below
`2 ^ 63` is packed from what is read from it; the top bit of others is not looked at. -/
theorem ids_ordered_bijection :
    (∀ sequence task partition : UInt64,
      ((∃ id, pack sequence task partition = .ok id) ↔ Fits sequence task partition) ∧
      (∀ overflow, pack sequence task partition = .error overflow ↔
        FirstTooWide sequence task partition overflow) ∧
      ∀ id, pack sequence task partition = .ok id →
        id.raw.toNat < 2 ^ 63 ∧ id.fields = (sequence, task, partition)) ∧
    (∀ id : BlockId, id.raw.toNat < 2 ^ 63 → pack id.sequence id.task id.partition = .ok id) ∧
    (∀ id : BlockId, Fits id.sequence id.task id.partition ∧
      ∀ other : BlockId, id.fields = other.fields ↔ id.raw.toNat % 2 ^ 63 = other.raw.toNat % 2 ^ 63) ∧
    ∀ (sequence task partition sequence' task' partition' : UInt64) (id id' : BlockId),
      pack sequence task partition = .ok id → pack sequence' task' partition' = .ok id' →
        (id.raw < id'.raw ↔ sequence < sequence' ∨ sequence = sequence' ∧
          (task < task' ∨ task = task' ∧ partition < partition')) ∧
        (id.raw = id'.raw ↔ sequence = sequence' ∧ task = task' ∧ partition = partition') := by
  refine ⟨fun sequence task partition => ⟨exists_pack_iff, ?_, ?_⟩, ?_, ?_, ?_⟩
  · intro overflow
    exact pack_eq_error_iff
  · intro id h
    exact ⟨raw_lt_of_pack h, fields_of_pack h⟩
  · intro id h
    exact pack_fields h
  · intro id
    exact ⟨id.fits_fields, fun other => fields_eq_iff⟩
  · intro _ _ _ _ _ _ _ _ h h'
    exact ⟨raw_lt_iff_of_pack h h', raw_eq_iff_of_pack h h'⟩

/-- The last id of one sequence number and the first of the next: the carry goes through both fields. -/
theorem ids_ordered_bijection_acrossFields :
    let last : BlockId := ⟨0x1FFFFFFFFFFF⟩
    let next : BlockId := ⟨0x200000000000⟩
    pack 0 0x1FFFFF 0xFFFFFF = .ok last ∧ pack 1 0 0 = .ok next ∧
      last.fields = (0, 0x1FFFFF, 0xFFFFFF) ∧ next.fields = (1, 0, 0) ∧
      pack last.sequence last.task last.partition = .ok last ∧ last.raw < next.raw := by
  obtain ⟨hpack, hunpack, -, horder⟩ := ids_ordered_bijection
  have hlast : pack 0 0x1FFFFF 0xFFFFFF = .ok ⟨0x1FFFFFFFFFFF⟩ := by decide
  have hnext : pack 1 0 0 = .ok ⟨0x200000000000⟩ := by decide
  refine ⟨hlast, hnext, ((hpack _ _ _).2.2 _ hlast).2, ((hpack _ _ _).2.2 _ hnext).2, ?_, ?_⟩
  · exact hunpack ⟨0x1FFFFFFFFFFF⟩ (by decide)
  · exact (horder _ _ _ _ _ _ _ _ hlast hnext).1.mpr (by decide)

end BlockId

end BlockShuffle
