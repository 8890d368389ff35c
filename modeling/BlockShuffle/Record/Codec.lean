import BlockShuffle.BlockId
import BlockShuffle.Record.Utf8

/-!
# Record codecs

A block's payload is records one after another, without a count and without separators, so every
encoding has to say by itself where it ends:

* numbers are little-endian at their own width, a boolean and the tag of an optional value one byte,
  a character its UTF-8;
* texts, byte strings and lists have their length in front, as a 64-bit number;
* pairs are their parts, and a value of a type with one value is nothing at all.

A codec carries the fewest bytes it takes and the fact that decoding takes at least that many. A
codec that takes some is fit for records: reading records until the bytes are used up comes to an
end, because each one uses some.

The proof that decoding takes enough bytes is a field of the codec, so a loop that reads records
until the bytes are used up is a definition that ends and needs no fuel; records of no bytes, of
which a payload would hold any number, are excluded by the type of `RecordCodec`. What a codec is
*not* obliged to is being right: that decoding undoes encoding is a property, proved in
`Proofs/Record/Exact`.

Faults say which of the rules was broken, with the numbers that a message needs, and stop at the
first. A length that is larger than what is left is refused when the bytes run out and not before,
as is a count of values; nothing is reserved for it.
-/

set_option autoImplicit false

namespace BlockShuffle

/-! ## Faults -/

/-- Why bytes are not a record. -/
inductive RecordFault where
  /-- The bytes end inside a value. -/
  | endOfInput
  | invalidBool (byte : UInt8)
  | invalidTag (byte : UInt8)
  | invalidChar
  | invalidText (fault : Utf8Fault)
deriving DecidableEq, Repr

/-- What is wrong, in the words of an error message. -/
def RecordFault.message : RecordFault → String
  | .endOfInput => "io error: failed to fill whole buffer"
  | .invalidBool byte => s!"invalid u8 while decoding bool, expected 0 or 1, found {byte}"
  | .invalidTag byte => s!"tag for enum is not valid, found {byte}"
  | .invalidChar => "char is not valid"
  | .invalidText fault => s!"string is not valid utf8: {fault.message}"

/-- What decoding comes to: a value and the bytes behind it, or a fault. -/
abbrev Decoded (α : Type) := Except RecordFault (α × Bytes)

/-- Decoding from these bytes takes at least `least` of them. -/
def Decoded.Takes {α : Type} (least : Nat) (bytes : Bytes) (decoded : Decoded α) : Prop :=
  ∀ value rest, decoded = .ok (value, rest) → rest.length + least ≤ bytes.length

/-! ## Codecs -/

/-- An encoding that says where it ends. -/
structure Codec (α : Type) where
  encode : α → Bytes
  decode : Bytes → Decoded α
  /-- The fewest bytes an encoding takes. -/
  least : Nat
  decode_takes : ∀ bytes, (decode bytes).Takes least bytes

namespace Codec

variable {α β : Type}

/-- The first `count` bytes, and the rest. -/
def split (count : Nat) (bytes : Bytes) : Decoded Bytes :=
  if (bytes.take count).length = count then .ok (bytes.take count, bytes.drop count)
  else .error .endOfInput

theorem split_takes (count : Nat) (bytes : Bytes) : (split count bytes).Takes count bytes := by
  intro value rest h
  unfold split at h
  split at h
  · rename_i hlen
    simp only [Except.ok.injEq, Prod.mk.injEq] at h
    obtain ⟨-, rfl⟩ := h
    rw [List.length_take] at hlen
    rw [List.length_drop]
    omega
  · cases h

/-- Decode one value after another. -/
def andThen (first : Decoded α) (next : α → Bytes → Decoded β) : Decoded β :=
  match first with
  | .error fault => .error fault
  | .ok (value, rest) => next value rest

theorem andThen_takes {bytes : Bytes} {first : Decoded α} {next : α → Bytes → Decoded β}
    {least : Nat} (more : Nat) (hfirst : first.Takes least bytes)
    (hnext : ∀ value rest, (next value rest).Takes more rest) :
    (andThen first next).Takes (least + more) bytes := by
  intro value rest h
  match first, hfirst, h with
  | .ok (middle, behind), hfirst, h =>
    have h₁ := hfirst middle behind rfl
    have h₂ := hnext middle behind value rest h
    omega

theorem takes_ok {least : Nat} {bytes : Bytes} (value : α) (rest : Bytes)
    (h : rest.length + least ≤ bytes.length) :
    Decoded.Takes (α := α) least bytes (.ok (value, rest)) := by
  intro value' rest' heq
  cases heq
  exact h

theorem takes_error {least : Nat} {bytes : Bytes} {fault : RecordFault} :
    Decoded.Takes (α := α) least bytes (.error fault) := by
  intro value rest heq
  cases heq

/-- A number of `width` bytes. -/
def decodeNumber (width : Nat) (bytes : Bytes) : Decoded Nat :=
  andThen (split width bytes) fun digits rest => .ok (LittleEndian.decode digits, rest)

theorem decodeNumber_takes (width : Nat) (bytes : Bytes) :
    (decodeNumber width bytes).Takes width bytes :=
  andThen_takes 0 (split_takes width bytes) fun _ _ => takes_ok _ _ (by simp)

/-- A word, through the number it stands for. -/
def word (width : Nat) (toNat : α → Nat) (ofNat : Nat → α) : Codec α where
  encode value := LittleEndian.encode width (toNat value)
  decode bytes := andThen (decodeNumber width bytes) fun number rest => .ok (ofNat number, rest)
  least := width
  decode_takes bytes :=
    andThen_takes 0 (decodeNumber_takes width bytes) fun _ _ => takes_ok _ _ (by simp)

def u8 : Codec UInt8 := word 1 UInt8.toNat UInt8.ofNat

def u16 : Codec UInt16 := word 2 UInt16.toNat UInt16.ofNat

def u32 : Codec UInt32 := word 4 UInt32.toNat UInt32.ofNat

def u64 : Codec UInt64 := word 8 UInt64.toNat UInt64.ofNat

/-- A codec for values that another type stands for. -/
def through (codec : Codec α) (there : β → α) (back : α → β) : Codec β where
  encode value := codec.encode (there value)
  decode bytes := andThen (codec.decode bytes) fun value rest => .ok (back value, rest)
  least := codec.least
  decode_takes bytes :=
    andThen_takes 0 (codec.decode_takes bytes) fun _ _ => takes_ok _ _ (by simp)

def i8 : Codec Int8 := u8.through Int8.toUInt8 UInt8.toInt8

def i32 : Codec Int32 := u32.through Int32.toUInt32 UInt32.toInt32

def i64 : Codec Int64 := u64.through Int64.toUInt64 UInt64.toInt64

/-- A block id is its word. -/
def blockId : Codec BlockId := u64.through BlockId.raw BlockId.mk

/-- The one value of a type that has no other takes no bytes. -/
def unit : Codec Unit where
  encode _ := []
  decode bytes := .ok ((), bytes)
  least := 0
  decode_takes _ := takes_ok _ _ (by simp)

def bool : Codec Bool where
  encode value := if value then [1] else [0]
  decode bytes := andThen (u8.decode bytes) fun byte rest =>
    if byte = 0 then .ok (false, rest)
    else if byte = 1 then .ok (true, rest)
    else .error (.invalidBool byte)
  least := 1
  decode_takes bytes := by
    refine andThen_takes 0 (u8.decode_takes bytes) fun byte rest => ?_
    split
    · exact takes_ok _ _ (by simp)
    · split
      · exact takes_ok _ _ (by simp)
      · exact takes_error

/-- A character is its UTF-8. Input that ends inside one is as bad as any other. -/
def char : Codec Char where
  encode := String.utf8EncodeChar
  decode
    | [] => .error .endOfInput
    | first :: rest =>
      match Utf8.next first rest with
      | .error _ => .error .invalidChar
      | .ok decoded => .ok decoded
  least := 1
  decode_takes := by
    intro bytes value behind h
    cases bytes with
    | nil => cases h
    | cons first rest =>
      simp only at h
      split at h
      · cases h
      · rename_i decoded heq
        cases h
        have := Utf8.length_le_of_next heq
        simp only [List.length_cons]
        omega

/-- What stands behind a tag. -/
def decodeTagged (codec : Codec α) (tag : UInt8) (bytes : Bytes) : Decoded (Option α) :=
  if tag = 0 then .ok (none, bytes)
  else if tag = 1 then
    andThen (codec.decode bytes) fun value rest => .ok (some value, rest)
  else .error (.invalidTag tag)

theorem decodeTagged_takes (codec : Codec α) (tag : UInt8) (bytes : Bytes) :
    (codec.decodeTagged tag bytes).Takes 0 bytes := by
  unfold decodeTagged
  split
  · exact takes_ok _ _ (by simp)
  · split
    · intro value behind h
      have := andThen_takes 0 (codec.decode_takes bytes)
        (fun value rest => takes_ok (some value) rest (by simp))
        value behind h
      omega
    · exact takes_error

/-- A value that may be absent: a tag, and the value if there is one. -/
def option (codec : Codec α) : Codec (Option α) where
  encode
    | none => [0]
    | some value => 1 :: codec.encode value
  decode bytes := andThen (u8.decode bytes) codec.decodeTagged
  least := 1
  decode_takes bytes :=
    andThen_takes 0 (u8.decode_takes bytes) fun tag rest => codec.decodeTagged_takes tag rest

/-- Two values, one behind the other. -/
def pair (first : Codec α) (second : Codec β) : Codec (α × β) where
  encode value := first.encode value.1 ++ second.encode value.2
  decode bytes := andThen (first.decode bytes) fun a rest =>
    andThen (second.decode rest) fun b rest => .ok ((a, b), rest)
  least := first.least + second.least
  decode_takes bytes :=
    andThen_takes _ (first.decode_takes bytes) fun _ rest =>
      andThen_takes 0 (second.decode_takes rest) fun _ _ => takes_ok _ _ (by simp)

/-- A count of what follows. -/
def encodeCount (count : Nat) : Bytes := LittleEndian.encode 8 count

/-- A string of bytes, with its length in front. -/
def bytes : Codec Bytes where
  encode value := encodeCount value.length ++ value
  decode bytes := andThen (decodeNumber 8 bytes) split
  least := 8
  decode_takes bytes :=
    andThen_takes 0 (decodeNumber_takes 8 bytes) fun count rest value behind h => by
      have := split_takes count rest value behind h
      omega

/-- A text is the string of its UTF-8 bytes. -/
def text : Codec String where
  encode value := bytes.encode (Utf8.encode value)
  decode input := andThen (bytes.decode input) fun encoded rest =>
    match Utf8.decode encoded with
    | .error fault => .error (.invalidText fault)
    | .ok value => .ok (value, rest)
  least := 8
  decode_takes input := by
    refine andThen_takes 0 (bytes.decode_takes input) fun encoded rest => ?_
    split
    · exact takes_error
    · exact takes_ok _ _ (by simp)

/-- `count` values, one behind the other. -/
def decodeMany (codec : Codec α) : (count : Nat) → Bytes → Decoded (List α)
  | 0, bytes => .ok ([], bytes)
  | count + 1, bytes => andThen (codec.decode bytes) fun value rest =>
    andThen (decodeMany codec count rest) fun values rest => .ok (value :: values, rest)

theorem decodeMany_takes (codec : Codec α) (count : Nat) (bytes : Bytes) :
    (codec.decodeMany count bytes).Takes 0 bytes := by
  induction count generalizing bytes with
  | zero => exact takes_ok _ _ (by simp)
  | succ count ih =>
    intro values behind h
    have := andThen_takes 0 (codec.decode_takes bytes)
      (fun value rest => andThen_takes 0 (ih rest)
        fun values rest => takes_ok (value :: values) rest (by simp))
      values behind h
    omega

/-- A list, with its length in front. -/
def list (codec : Codec α) : Codec (List α) where
  encode values := encodeCount values.length ++ values.flatMap codec.encode
  decode bytes := andThen (decodeNumber 8 bytes) codec.decodeMany
  least := 8
  decode_takes bytes :=
    andThen_takes 0 (decodeNumber_takes 8 bytes) fun count rest =>
      codec.decodeMany_takes count rest

end Codec

/-! ## Records -/

/-- A codec for records: every encoding takes some bytes. -/
structure RecordCodec (α : Type) extends Codec α where
  least_pos : 0 < least

namespace RecordCodec

variable {α : Type}

/-- The payload that holds these records. -/
def encodeAll (codec : RecordCodec α) (records : List α) : Bytes := records.flatMap codec.encode

/-- Every record of a payload. One that does not decode spoils the payload. -/
def decodeAll (codec : RecordCodec α) (payload : Bytes) : Except RecordFault (List α) :=
  if payload.isEmpty then .ok []
  else
    match _h : codec.decode payload with
    | .error fault => .error fault
    | .ok (record, rest) => (codec.decodeAll rest).map (record :: ·)
termination_by payload.length
decreasing_by
  have := codec.decode_takes payload record rest _h
  have := codec.least_pos
  omega

end RecordCodec

end BlockShuffle
