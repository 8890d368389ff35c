import BlockShuffle.Bytes

/-!
# UTF-8

Strict decoding, one character at a time. The first byte fixes how many bytes a character takes and
which second bytes it can have (that is what keeps out overlong forms, surrogates and everything
past the last code point); bytes after the second are continuation bytes. Where a string of bytes is
not UTF-8, the fault says from which byte on and, unless the input just ends inside a character, how
many bytes could not start or continue one.

The library has strings and their encoding, and its decoder answers whether a string of bytes is
valid. A reader of records has to say more: an error tells where the bad byte is and how long the
bad sequence, so decoding is written out with the fault as its result. That it accepts exactly the
encodings of texts, in their shortest form, is proved against the library's encoder in
`Proofs/Record/Utf8`; that the positions it reports are right is nowhere stated, and they are seen
in messages alone.
-/

set_option autoImplicit false

namespace BlockShuffle

/-- Why a string of bytes is not UTF-8. -/
structure Utf8Fault where
  /-- How many bytes in front are whole characters. -/
  index : Nat
  /-- How many bytes from there on are in the way; none is said where the input ends too early. -/
  length : Option Nat
deriving DecidableEq, Repr

/-- What is wrong, in the words of an error message. -/
def Utf8Fault.message (fault : Utf8Fault) : String :=
  match fault.length with
  | some length => s!"invalid utf-8 sequence of {length} bytes from index {fault.index}"
  | none => s!"incomplete utf-8 byte sequence from index {fault.index}"

namespace Utf8

/-- Whether a byte continues a character. -/
def isContinuation (byte : UInt8) : Bool := 0x80 ≤ byte && byte ≤ 0xBF

/-- How many bytes a character takes that starts with this byte; zero, if none does. -/
def width (first : UInt8) : Nat :=
  if first ≤ 0x7F then 1
  else if 0xC2 ≤ first && first ≤ 0xDF then 2
  else if 0xE0 ≤ first && first ≤ 0xEF then 3
  else if 0xF0 ≤ first && first ≤ 0xF4 then 4
  else 0

/-- Whether a character can go on with `second` behind `first`. -/
def canFollow (first second : UInt8) : Bool :=
  let low : UInt8 := if first = 0xE0 then 0xA0 else if first = 0xF0 then 0x90 else 0x80
  let high : UInt8 := if first = 0xED then 0x9F else if first = 0xF4 then 0x8F else 0xBF
  low ≤ second && second ≤ high

/-- The low six bits that a continuation byte carries. -/
def payload (byte : UInt8) : Nat := byte.toNat % 64

/-- The character that starts with `first`, and what follows it. The error is the number of bytes in
the way, or nothing where the input ends first. -/
def next (first : UInt8) (rest : Bytes) : Except (Option Nat) (Char × Bytes) :=
  match width first, rest with
  | 1, rest => .ok (Char.ofNat first.toNat, rest)
  | 2, second :: rest =>
    if canFollow first second then
      .ok (Char.ofNat (first.toNat % 32 * 64 + payload second), rest)
    else .error (some 1)
  | 3, second :: rest =>
    if canFollow first second then
      match rest with
      | third :: rest =>
        if isContinuation third then
          .ok (Char.ofNat (first.toNat % 16 * 4096 + payload second * 64 + payload third), rest)
        else .error (some 2)
      | [] => .error none
    else .error (some 1)
  | 4, second :: rest =>
    if canFollow first second then
      match rest with
      | third :: rest =>
        if isContinuation third then
          match rest with
          | fourth :: rest =>
            if isContinuation fourth then
              .ok (Char.ofNat (first.toNat % 8 * 262144 + payload second * 4096 +
                payload third * 64 + payload fourth), rest)
            else .error (some 3)
          | [] => .error none
        else .error (some 2)
      | [] => .error none
    else .error (some 1)
  | 0, _ => .error (some 1)
  | _, _ => .error none

theorem length_le_of_next {first : UInt8} {rest : Bytes} {c : Char} {behind : Bytes}
    (h : next first rest = .ok (c, behind)) : behind.length ≤ rest.length := by
  unfold next at h
  repeat' split at h
  all_goals simp_all
  all_goals omega

/-- The characters of a string of bytes that starts `index` bytes into a longer one. -/
def decodeFrom (index : Nat) (bytes : Bytes) : Except Utf8Fault (List Char) :=
  match bytes with
  | [] => .ok []
  | first :: rest =>
    match _h : next first rest with
    | .error length => .error ⟨index, length⟩
    | .ok (c, behind) => (decodeFrom (index + width first) behind).map (c :: ·)
termination_by bytes.length
decreasing_by
  have := length_le_of_next _h
  simp only [List.length_cons]
  omega

/-- The text of a string of bytes. -/
def decode (bytes : Bytes) : Except Utf8Fault String :=
  (decodeFrom 0 bytes).map String.ofList

/-- The bytes of a text. -/
def encode (text : String) : Bytes := text.toList.flatMap String.utf8EncodeChar

end Utf8

end BlockShuffle
