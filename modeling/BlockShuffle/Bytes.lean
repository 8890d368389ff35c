/-!
# Bytes and little-endian words

Everything the library stores is a list of bytes: payloads, index entries, encoded records. The one
word format is little-endian at a fixed width, so there is one encoder and one decoder here, on
naturals, and every fixed-width field is one of them at its own width. The encoder keeps the low
bytes of a number that is too large for its width, so the width alone says how long an encoding is.

Lists and not arrays, because everything said about bytes is said by `++`, `take` and `drop`, whose
lemmas are the library's; where a long string has to be cut quickly it is packed (`Packed`), and the
packing is undone by an equation. Numbers are naturals while they are encoded, for the same reason:
a width in bytes is an exponent, and words of 8, 32 and 64 bits need no lemmas of their own. Signed
numbers have their two's complement taken before they come here. `slice?` is the only partial
operation, and refusing a piece that reaches past the end, where `take` would give a shorter one, is
what tells data that is lost from data that is there.
-/

set_option autoImplicit false

namespace BlockShuffle

/-- A string of bytes: a payload, a file's contents, an encoded record. -/
abbrev Bytes := List UInt8

/-- The `length` bytes that start at `offset`, if the string reaches that far. -/
def Bytes.slice? (bytes : Bytes) (offset length : Nat) : Option Bytes :=
  if offset + length ≤ bytes.length then some ((bytes.drop offset).take length) else none

namespace LittleEndian

/-- The low `width` bytes of a number, least significant first. -/
def encode : (width value : Nat) → Bytes
  | 0, _ => []
  | width + 1, value => UInt8.ofNat (value % 256) :: encode width (value / 256)

/-- The number whose little-endian bytes these are. -/
def decode : Bytes → Nat
  | [] => 0
  | byte :: rest => byte.toNat + 256 * decode rest

@[simp] theorem length_encode (width value : Nat) : (encode width value).length = width := by
  induction width generalizing value with
  | zero => rfl
  | succ width ih => simp [encode, ih]

end LittleEndian

end BlockShuffle
