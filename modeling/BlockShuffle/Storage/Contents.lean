import BlockShuffle.Packed

/-!
# File contents

No file is longer than a 64-bit offset can say. The bound is part of the type, so that a position is
always exact and an append that would pass the bound is refused instead of wrapping.

The bytes are held packed, since files are long and a list of bytes is not, but every lemma here
says what an operation does to the list: `bytes_of_append?`, `slice?_eq_slice?_bytes` and
`ext_bytes` are the only ones that see the packing, and no proof elsewhere opens it. There is no
operation that shortens a file or changes a byte in its midst. The library only appends and reads
ranges; where a statement is about a file that was damaged or cut short, the damage puts other
contents in the file's place. A refused append leaves nothing behind, which is a decision of this
type; how much of a failing append a storage keeps is a matter of the storage's faults.
-/

set_option autoImplicit false

namespace BlockShuffle

/-- The bytes of a file. -/
structure Contents where
  packed : Packed
  length_lt : packed.length < UInt64.size

namespace Contents

/-- The bytes, one by one. -/
def bytes (contents : Contents) : Bytes := contents.packed.toBytes

/-- How many bytes there are. -/
def length (contents : Contents) : Nat := contents.packed.length

/-- The file that holds nothing. -/
def empty : Contents := ⟨.ofBytes [], by decide⟩

/-- How long the file is, as a position in it. -/
def size (contents : Contents) : UInt64 := UInt64.ofNatLT contents.length contents.length_lt

/-- The file with more bytes behind its end, if it stays within the bound. -/
def append? (contents : Contents) (bytes : Bytes) : Option Contents :=
  let packed := contents.packed.append bytes
  if h : packed.length < UInt64.size then some ⟨packed, h⟩ else none

/-- A file that holds these bytes. -/
def ofBytes? (bytes : Bytes) : Option Contents := empty.append? bytes

/-- The `length` bytes that start at `offset`, if the file reaches that far. -/
def slice? (contents : Contents) (offset length : Nat) : Option Bytes :=
  contents.packed.slice? offset length

/-! ## The list of bytes -/

@[ext]
theorem ext_bytes {contents other : Contents} (h : contents.bytes = other.bytes) :
    contents = other := by
  obtain ⟨packed, _⟩ := contents
  obtain ⟨others, _⟩ := other
  have : packed = others := Packed.ext_toBytes h
  subst this
  rfl

@[simp] theorem length_bytes (contents : Contents) : contents.bytes.length = contents.length := rfl

@[simp] theorem bytes_empty : empty.bytes = [] := rfl

theorem size_eq (contents : Contents) : contents.size = UInt64.ofNat contents.length :=
  UInt64.ofNatLT_eq_ofNat _

theorem toNat_size (contents : Contents) : contents.size.toNat = contents.length :=
  UInt64.toNat_ofNatLT

/-- What is appended comes behind what was there. -/
theorem bytes_of_append? {contents longer : Contents} {bytes : Bytes}
    (h : contents.append? bytes = some longer) : longer.bytes = contents.bytes ++ bytes := by
  simp only [append?, Option.dite_none_right_eq_some, Option.some.injEq] at h
  obtain ⟨_, rfl⟩ := h
  exact contents.packed.toBytes_append bytes

/-- An append is refused only where the file would pass the bound. -/
theorem append?_eq_none_iff {contents : Contents} {bytes : Bytes} :
    contents.append? bytes = none ↔ UInt64.size ≤ contents.length + bytes.length := by
  simp [append?, length]

/-- A ranged read of a file is one of its list of bytes. -/
theorem slice?_eq_slice?_bytes (contents : Contents) (offset length : Nat) :
    contents.slice? offset length = contents.bytes.slice? offset length :=
  contents.packed.slice?_eq offset length

end Contents

end BlockShuffle
