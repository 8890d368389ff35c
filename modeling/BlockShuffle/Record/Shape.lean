import BlockShuffle.Record.Codec

/-!
# Shapes of records

A record is a key and a value, and what they can be is built from words, characters, texts and
strings of bytes by options, lists and pairs. A shape says how. From it follow the type of the
values, their codec, and which values have an encoding: a length is written as a 64-bit number, so a
length that does not fit one cannot be written, and nothing that fits into a machine's memory is
that long.

Ten record types are in use and they are ten values of `RecordType`, not ten codecs. What is proved
of them is proved by recursion on shapes, one case for each way to build a value, and a new type of
records that is made of these costs no proof. Types are not nested beyond that: there are no sums
but options, no maps, and no shape that refers to itself, as none of the records needs one.

`Fits` is a predicate and not a restriction of the type, because the encoder has to be total on the
values a caller may hand over. It is decidable, so that it can be checked of a record at hand, and
holds of every record whose lengths are below 2⁶⁴.
-/

set_option autoImplicit false

namespace BlockShuffle

/-- How a value is built. -/
inductive Shape where
  | unit
  | bool
  | u8
  | u16
  | u32
  | u64
  | i8
  | i32
  | i64
  | char
  | text
  | bytes
  | blockId
  | option (value : Shape)
  | list (value : Shape)
  | pair (first second : Shape)
deriving DecidableEq, Repr

namespace Shape

/-- The values of a shape. -/
@[reducible]
def Value : Shape → Type
  | .unit => Unit
  | .bool => Bool
  | .u8 => UInt8
  | .u16 => UInt16
  | .u32 => UInt32
  | .u64 => UInt64
  | .i8 => Int8
  | .i32 => Int32
  | .i64 => Int64
  | .char => Char
  | .text => String
  | .bytes => Bytes
  | .blockId => BlockId
  | .option value => Option value.Value
  | .list value => List value.Value
  | .pair first second => first.Value × second.Value

/-- The codec of a shape. -/
def codec : (shape : Shape) → Codec shape.Value
  | .unit => .unit
  | .bool => .bool
  | .u8 => .u8
  | .u16 => .u16
  | .u32 => .u32
  | .u64 => .u64
  | .i8 => .i8
  | .i32 => .i32
  | .i64 => .i64
  | .char => .char
  | .text => .text
  | .bytes => .bytes
  | .blockId => .blockId
  | .option value => .option value.codec
  | .list value => .list value.codec
  | .pair first second => .pair first.codec second.codec

/-- Every length in the value can be written. -/
def Fits : (shape : Shape) → shape.Value → Prop
  | .text, value => (Utf8.encode value).length < UInt64.size
  | .bytes, value => value.length < UInt64.size
  | .option shape, value => ∀ inner ∈ value, shape.Fits inner
  | .list shape, values => values.length < UInt64.size ∧ ∀ value ∈ values, shape.Fits value
  | .pair first second, value => first.Fits value.1 ∧ second.Fits value.2
  | .unit, _ | .bool, _ | .u8, _ | .u16, _ | .u32, _ | .u64, _ | .i8, _ | .i32, _ | .i64, _ | .char, _
  | .blockId, _ => True

instance decidableFits : (shape : Shape) → DecidablePred shape.Fits
  | .text, value => inferInstanceAs (Decidable ((Utf8.encode value).length < UInt64.size))
  | .bytes, value => inferInstanceAs (Decidable (value.length < UInt64.size))
  | .option shape, value =>
    have := shape.decidableFits
    inferInstanceAs (Decidable (∀ inner ∈ value, shape.Fits inner))
  | .list shape, values =>
    have := shape.decidableFits
    inferInstanceAs (Decidable (values.length < UInt64.size ∧ ∀ value ∈ values, shape.Fits value))
  | .pair first second, value =>
    have := first.decidableFits
    have := second.decidableFits
    inferInstanceAs (Decidable (first.Fits value.1 ∧ second.Fits value.2))
  | .unit, _ | .bool, _ | .u8, _ | .u16, _ | .u32, _ | .u64, _ | .i8, _ | .i32, _ | .i64, _ | .char, _
  | .blockId, _ => isTrue trivial

end Shape

/-! ## Records -/

/-- The records there are, by key and value. -/
inductive RecordType where
  | textU64
  | u64Text
  | bytesBytes
  | i32Bool
  | charOptionU64
  /-- A float is the word of its bits. -/
  | u8Float
  | i64Texts
  | blockIdText
  | unitU16
  | textPair
deriving DecidableEq, Repr

namespace RecordType

def shape : RecordType → Shape
  | .textU64 => .pair .text .u64
  | .u64Text => .pair .u64 .text
  | .bytesBytes => .pair .bytes .bytes
  | .i32Bool => .pair .i32 .bool
  | .charOptionU64 => .pair .char (.option .u64)
  | .u8Float => .pair .u8 .u64
  | .i64Texts => .pair .i64 (.list .text)
  | .blockIdText => .pair .blockId .text
  | .unitU16 => .pair .unit .u16
  | .textPair => .pair .text (.pair .u32 .i8)

/-- The codec of the records of a type. -/
def codec (type : RecordType) : RecordCodec type.shape.Value where
  toCodec := type.shape.codec
  least_pos := by cases type <;> decide

end RecordType

end BlockShuffle
