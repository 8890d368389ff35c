import Mathlib
import BlockShuffle.Crc32

/-!
# What a checksum cannot miss

Two strings of one length that differ in some byte, and nowhere outside of four bytes in a row, have different
checksums (`crc32_ne_of_local`), however long they are and wherever those bytes lie.

The bytes behind the difference cannot hide it, because absorbing a byte loses nothing of the remainder
(`absorb_inj`). The bytes in it cannot cancel out, and that is read backwards: a bit that falls out of a
shift leaves the top bit set (`eq_two_mul_of_shift_lt`), so a remainder that is still small after eight shifts
was the same number, eight places up (`eq_mul_of_iterate_lt`). Going back over `n` bytes to equal remainders,
the remainders in front of them agree but for the low `8 * n` bits (`windows`). For at most four bytes these
still fit into the remainder, which is where the bound comes from; and if the remainders in front are equal,
so are the bytes.

Longer windows are left out, and not for want of proof: over five bytes there are changes that a checksum of 32
bits does not see. Strings of different lengths are not compared either. The index says how long a payload is,
so a reader never sums another number of bytes.
-/

set_option autoImplicit false

namespace BlockShuffle

namespace Crc32

/-! ## One shift -/

theorem and_one_eq_one_iff (x : UInt32) : x &&& 1 = 1 ↔ x.toNat % 2 = 1 := by
  rw [← UInt32.toNat_inj, UInt32.toNat_and]
  exact iff_of_eq (congrArg (· = 1) (Nat.and_one_is_mod x.toNat))

theorem toNat_shiftRight_one (x : UInt32) : (x >>> 1).toNat = x.toNat / 2 := by
  rw [UInt32.toNat_shiftRight]
  exact Nat.shiftRight_one x.toNat

/-- **A shift is linear.** -/
theorem shift_xor (x y : UInt32) : shift (x ^^^ y) = shift x ^^^ shift y := by
  have hlow : (x ^^^ y) &&& 1 = 1 ↔ ¬(x &&& 1 = 1 ↔ y &&& 1 = 1) := by
    rw [and_one_eq_one_iff, and_one_eq_one_iff, and_one_eq_one_iff, UInt32.toNat_xor, Nat.xor_mod_two_eq]
    omega
  rw [shift, shift, shift, UInt32.shiftRight_xor]
  by_cases hx : x &&& 1 = 1 <;> by_cases hy : y &&& 1 = 1
  · -- Both bits fall out, and the polynomial is taken away twice.
    rw [if_neg (by tauto), if_pos hx, if_pos hy, UInt32.xor_comm (y >>> 1), UInt32.xor_assoc,
      ← UInt32.xor_assoc polynomial, UInt32.xor_self, UInt32.zero_xor]
  · rw [if_pos (by tauto), if_pos hx, if_neg hy, UInt32.xor_assoc, UInt32.xor_assoc,
      UInt32.xor_comm (y >>> 1)]
  · rw [if_pos (by tauto), if_neg hx, if_pos hy, UInt32.xor_assoc]
  · rw [if_neg (by tauto), if_neg hx, if_neg hy]

/-- Where no bit fell out, the remainder only moved down; where one did, the top bit is set. -/
theorem eq_two_mul_of_shift_lt {x : UInt32} (h : (shift x).toNat < 2 ^ 31) :
    x.toNat = 2 * (shift x).toNat := by
  have heven : ¬x &&& 1 = 1 := by
    intro hodd
    have hbound : (x >>> 1).toNat < 2 ^ 31 := by
      have := x.toNat_lt
      rw [toNat_shiftRight_one]
      omega
    have htop : (shift x).toNat.testBit 31 = true := by
      rw [shift, if_pos hodd, UInt32.toNat_xor, Nat.testBit_xor, Nat.testBit_lt_two_pow hbound]
      rfl
    exact absurd h (Nat.not_lt.mpr (Nat.ge_two_pow_of_testBit htop))
  rw [shift, if_neg heven, toNat_shiftRight_one]
  rw [and_one_eq_one_iff] at heven
  omega

/-! ## A byte -/

theorem iterate_shift_xor (n : Nat) (x y : UInt32) : shift^[n] (x ^^^ y) = shift^[n] x ^^^ shift^[n] y := by
  induction n generalizing x y with
  | zero => rfl
  | succ n ih => rw [Function.iterate_succ_apply, shift_xor, ih]; rfl

/-- A remainder that is small after some shifts only moved down in them. -/
theorem eq_mul_of_iterate_lt {n : Nat} {x : UInt32} (hn : n ≤ 32) (h : (shift^[n] x).toNat < 2 ^ (32 - n)) :
    x.toNat = 2 ^ n * (shift^[n] x).toNat := by
  induction n with
  | zero => rw [Nat.pow_zero, Nat.one_mul]; rfl
  | succ n ih =>
    rw [Function.iterate_succ_apply'] at h ⊢
    have hsmall : (shift (shift^[n] x)).toNat < 2 ^ 31 :=
      h.trans_le (Nat.pow_le_pow_right Nat.two_pos (by omega))
    have hlast := eq_two_mul_of_shift_lt hsmall
    have hbound : 2 ^ (32 - n) = 2 * 2 ^ (32 - (n + 1)) := by
      rw [← Nat.pow_succ']
      congr 1
      omega
    rw [ih (by omega) (by omega), hlast, Nat.pow_succ, Nat.mul_assoc]

theorem absorb_eq (remainder : UInt32) (byte : UInt8) :
    absorb remainder byte = shift^[8] (remainder ^^^ byte.toUInt32) := rfl

theorem absorb_xor_absorb (s t : UInt32) (x y : UInt8) :
    absorb s x ^^^ absorb t y = shift^[8] ((s ^^^ t) ^^^ (x.toUInt32 ^^^ y.toUInt32)) := by
  rw [absorb_eq, absorb_eq, ← iterate_shift_xor]
  congr 1
  ac_rfl

/-- Absorbing a byte loses nothing of the remainder. -/
theorem absorb_inj {s t : UInt32} {byte : UInt8} (h : absorb s byte = absorb t byte) : s = t := by
  have hzero : shift^[8] (s ^^^ t) = 0 := by
    have hxor := absorb_xor_absorb s t byte byte
    rw [h, UInt32.xor_self, UInt32.xor_self, UInt32.xor_zero] at hxor
    exact hxor.symm
  have hsmall : (shift^[8] (s ^^^ t)).toNat < 2 ^ (32 - 8) := by
    rw [hzero]
    decide
  have hback := eq_mul_of_iterate_lt (by decide) hsmall
  rw [hzero] at hback
  exact UInt32.xor_eq_zero_iff.mp (UInt32.toNat_inj.mp hback)

theorem foldl_absorb_inj {bytes : Bytes} : ∀ {s t : UInt32},
    bytes.foldl absorb s = bytes.foldl absorb t → s = t := by
  induction bytes with
  | nil => exact id
  | cons byte bytes ih => exact fun h => absorb_inj (ih h)

/-! ## Four bytes -/

theorem toNat_toUInt32_lt (byte : UInt8) : byte.toUInt32.toNat < 2 ^ 8 := by
  rw [UInt8.toNat_toUInt32]
  exact byte.toNat_lt

/-- **Back over a window.** Remainders that are equal behind at most four bytes were equal in front of them,
but for the low bits that these bytes can change; and if they were equal altogether, so are the bytes. -/
theorem windows {xs : Bytes} : ∀ {ys : Bytes} {s t : UInt32}, xs.length = ys.length → xs.length ≤ 4 →
    xs.foldl absorb s = ys.foldl absorb t → (s ^^^ t).toNat < 2 ^ (8 * xs.length) ∧ (s = t → xs = ys) := by
  induction xs with
  | nil =>
    intro ys s t hlength _ h
    cases List.length_eq_zero_iff.mp hlength.symm
    cases h
    exact ⟨by rw [UInt32.xor_self]; decide, fun _ => rfl⟩
  | cons x xs ih =>
    intro ys s t hlength hfour h
    rcases ys with _ | ⟨y, ys⟩
    · cases hlength
    rw [List.length_cons] at hfour ⊢
    obtain ⟨hbehind, hrest⟩ := ih (Nat.succ.inj hlength) (by omega) h
    rw [absorb_xor_absorb] at hbehind
    -- What the two remainders differ by behind the first byte is small, so it only moved down.
    have hsmall : (shift^[8] ((s ^^^ t) ^^^ (x.toUInt32 ^^^ y.toUInt32))).toNat < 2 ^ (32 - 8) :=
      hbehind.trans_le (Nat.pow_le_pow_right Nat.two_pos (by omega))
    have hback := eq_mul_of_iterate_lt (by decide) hsmall
    have hbytes : (x.toUInt32 ^^^ y.toUInt32).toNat < 2 ^ 8 := by
      rw [UInt32.toNat_xor]
      exact Nat.xor_lt_two_pow (toNat_toUInt32_lt x) (toNat_toUInt32_lt y)
    have hwide : 2 ^ (8 * (xs.length + 1)) = 2 ^ 8 * 2 ^ (8 * xs.length) := by
      rw [Nat.mul_succ, Nat.pow_add, Nat.mul_comm]
    refine ⟨?_, ?_⟩
    · have hsum : ((s ^^^ t) ^^^ (x.toUInt32 ^^^ y.toUInt32)).toNat < 2 ^ (8 * (xs.length + 1)) := by
        rw [hback, hwide]
        exact Nat.mul_lt_mul_of_pos_left hbehind (by decide)
      have hlow : (x.toUInt32 ^^^ y.toUInt32).toNat < 2 ^ (8 * (xs.length + 1)) :=
        hbytes.trans_le (Nat.pow_le_pow_right Nat.two_pos (by omega))
      have hxor := Nat.xor_lt_two_pow hsum hlow
      rwa [← UInt32.toNat_xor, UInt32.xor_assoc, UInt32.xor_self, UInt32.xor_zero] at hxor
    · rintro rfl
      rw [UInt32.xor_self, UInt32.zero_xor] at hback
      have hzero : (x.toUInt32 ^^^ y.toUInt32).toNat = 0 := by omega
      have hfirst : x = y :=
        UInt8.toUInt32_inj.mp (UInt32.xor_eq_zero_iff.mp (UInt32.toNat_inj.mp hzero))
      subst hfirst
      rw [hrest rfl]

end Crc32

/-! ## Local changes -/

/-- The two strings do not have the same byte at this place. -/
def Bytes.DifferAt (bytes others : Bytes) (place : Nat) : Prop := bytes[place]? ≠ others[place]?

/-- **Local changes change the checksum.** -/
theorem crc32_ne_of_local {bytes others : Bytes} (hlength : bytes.length = others.length) {start place : Nat}
    (hchanged : bytes.DifferAt others place)
    (hlocal : ∀ place, bytes.DifferAt others place → start ≤ place ∧ place < start + 4) :
    crc32 bytes ≠ crc32 others := by
  have hfront : bytes.take start = others.take start := by
    refine List.ext_getElem? fun i => ?_
    rw [List.getElem?_take, List.getElem?_take]
    split_ifs with hi
    · by_contra hne
      exact absurd (hlocal i hne).1 (by omega)
    · rfl
  have hbehind : (bytes.drop start).drop 4 = (others.drop start).drop 4 := by
    refine List.ext_getElem? fun i => ?_
    rw [List.drop_drop, List.drop_drop, List.getElem?_drop, List.getElem?_drop]
    by_contra hne
    exact absurd (hlocal _ hne).2 (by omega)
  have hsplit (string : Bytes) :
      string = string.take start ++ ((string.drop start).take 4 ++ (string.drop start).drop 4) := by
    rw [List.take_append_drop, List.take_append_drop]
  intro h
  rw [crc32, crc32, UInt32.xor_left_inj, hsplit bytes, hsplit others, hfront, hbehind, List.foldl_append,
    List.foldl_append, List.foldl_append, List.foldl_append] at h
  have hwindow : ((bytes.drop start).take 4) = ((others.drop start).take 4) := by
    refine (Crc32.windows ?_ ?_ (Crc32.foldl_absorb_inj h)).2 rfl
    · rw [List.length_take, List.length_take, List.length_drop, List.length_drop, hlength]
    · exact List.length_take_le 4 _
  apply hchanged
  rw [hsplit bytes, hsplit others, hfront, hbehind, hwindow]

end BlockShuffle
