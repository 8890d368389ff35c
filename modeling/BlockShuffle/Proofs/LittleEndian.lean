import Mathlib
import BlockShuffle.Bytes

/-!
# Fixed-width words are a bijection

`decode_encode` reads back every number below `256 ^ width`, and `encode_decode` says that every
string of bytes is the encoding of its value at its own length. Together with `decode_lt` a
fixed-width field and the numbers that fit it are the same thing, which is what every format built
from such fields rests on.

The order of the bytes plays no part in any of the three, which is as it should be: they would hold of another
order just as well, and that the order is the low byte first is what the definition in `Bytes` says. Nothing
here is about words of the machine. A field of a block id, of an index entry or of a record is turned into a
number first, and the bound of its type is the bound these lemmas ask for. Each format then owes only that its
fields are where it says, one behind another.
-/

set_option autoImplicit false

namespace BlockShuffle.LittleEndian

/-- What fits the width is read back. -/
theorem decode_encode {width value : Nat} (h : value < 256 ^ width) :
    decode (encode width value) = value := by
  induction width generalizing value with
  | zero =>
    have : value = 0 := by simpa using h
    simp [encode, decode, this]
  | succ width ih =>
    have hdiv : value / 256 < 256 ^ width := by
      rw [Nat.pow_succ] at h
      exact Nat.div_lt_of_lt_mul (by omega)
    have hlow : (UInt8.ofNat (value % 256)).toNat = value % 256 := by
      simp [UInt8.toNat_ofNat']
    rw [encode, decode, ih hdiv, hlow]
    omega

/-- What is read fits the width. -/
theorem decode_lt (bytes : Bytes) : decode bytes < 256 ^ bytes.length := by
  induction bytes with
  | nil => simp [decode]
  | cons byte rest ih =>
    have := byte.toNat_lt
    rw [decode, List.length_cons, Nat.pow_succ]
    omega

/-- Every string of bytes encodes its value. -/
theorem encode_decode (bytes : Bytes) : encode bytes.length (decode bytes) = bytes := by
  induction bytes with
  | nil => rfl
  | cons byte rest ih =>
    have hb := byte.toNat_lt
    rw [List.length_cons, decode, encode]
    have hmod : (byte.toNat + 256 * decode rest) % 256 = byte.toNat := by omega
    have hdiv : (byte.toNat + 256 * decode rest) / 256 = decode rest := by omega
    rw [hmod, hdiv, ih, UInt8.ofNat_toNat]

end BlockShuffle.LittleEndian
