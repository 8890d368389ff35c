import BlockShuffle.Bytes

/-!
# Packed bytes

The contents of a file and the buffer of a read are cut into at any offset, and often. On a list
every cut walks from the front, so such bytes are packed: a length costs nothing, and a piece costs
what is in it.

What the operations mean is said through the list, `Packed.toBytes`: packed bytes are equal when
their lists are (`ext_toBytes`), appending is `++` (`toBytes_append`), and cutting is `drop` and
`take` (`piece_eq`, `slice?_eq`).

There is nothing to be proved with packed bytes that could not be proved with a list, and nothing
is: a file and a buffer are packed in the definitions that run, and the first step of a proof about
either is one of the equations below. No second list is kept beside the array. The array is
immutable here, so appending to a file of which somebody holds an older version leaves that one as
it was, as storage in memory relies on. The lemmas are in the module and not among the proofs, since
they are what the type means.
-/

set_option autoImplicit false

namespace BlockShuffle

/-- A string of bytes, packed. -/
structure Packed where
  array : ByteArray

namespace Packed

/-- The bytes, one by one. -/
def toBytes (packed : Packed) : Bytes := packed.array.data.toList

/-- Pack bytes. -/
def ofBytes (bytes : Bytes) : Packed := ⟨bytes.toByteArray⟩

/-- How many bytes there are. -/
def length (packed : Packed) : Nat := packed.array.size

/-- The bytes with more behind their end. -/
def append (packed : Packed) (bytes : Bytes) : Packed := ⟨packed.array ++ bytes.toByteArray⟩

/-- The `length` bytes that start at `offset`, as far as there are any. -/
def piece (packed : Packed) (offset length : Nat) : Bytes :=
  let start := min offset packed.length
  (packed.array.extract start (min (offset + length) packed.length)).data.toList

/-- The `length` bytes that start at `offset`, if there are that many. -/
def slice? (packed : Packed) (offset length : Nat) : Option Bytes :=
  if offset + length ≤ packed.length then some (packed.piece offset length) else none

/-! ## The list of bytes -/

@[ext]
theorem ext_toBytes {packed other : Packed} (h : packed.toBytes = other.toBytes) :
    packed = other := by
  obtain ⟨⟨array⟩⟩ := packed
  obtain ⟨⟨others⟩⟩ := other
  have : array = others := Array.toList_inj.1 h
  subst this
  rfl

@[simp] theorem length_toBytes (packed : Packed) : packed.toBytes.length = packed.length := rfl

@[simp] theorem toBytes_ofBytes (bytes : Bytes) : (ofBytes bytes).toBytes = bytes := by
  simp [ofBytes, toBytes]

@[simp] theorem length_ofBytes (bytes : Bytes) : (ofBytes bytes).length = bytes.length := by
  rw [← length_toBytes, toBytes_ofBytes]

@[simp] theorem toBytes_append (packed : Packed) (bytes : Bytes) :
    (packed.append bytes).toBytes = packed.toBytes ++ bytes := by
  simp [append, toBytes]

@[simp] theorem length_append (packed : Packed) (bytes : Bytes) :
    (packed.append bytes).length = packed.length + bytes.length := by
  rw [← length_toBytes, toBytes_append, List.length_append, length_toBytes]

/-- A piece is what is left of the list in front of its end, less what is in front of its start. -/
theorem piece_eq (packed : Packed) (offset length : Nat) :
    packed.piece offset length = (packed.toBytes.drop offset).take length := by
  have cut : packed.piece offset length =
      (packed.toBytes.drop (min offset packed.length)).take
        (min (offset + length) packed.length - min offset packed.length) := by
    simp [piece, toBytes]
  rw [cut]
  by_cases h : offset ≤ packed.length
  · rw [Nat.min_eq_left h, List.take_eq_take_iff, List.length_drop, length_toBytes]
    omega
  · have gone : packed.toBytes.drop offset = [] := by
      rw [List.drop_eq_nil_iff, length_toBytes]
      omega
    rw [gone, Nat.min_eq_right (by omega), Nat.min_eq_right (by omega), Nat.sub_self,
      List.take_zero, List.take_nil]

/-- Whether packed bytes reach far enough, and the piece if they do, is as for the list. -/
theorem slice?_eq (packed : Packed) (offset length : Nat) :
    packed.slice? offset length = packed.toBytes.slice? offset length := by
  rw [slice?, Bytes.slice?, length_toBytes, piece_eq]

end Packed

end BlockShuffle
