import Mathlib
import BlockShuffle.Record.Shape
import BlockShuffle.Proofs.LittleEndian
import BlockShuffle.Proofs.Record.Utf8

/-!
# Decoding takes off what encoding puts in front

A codec is exact if it decodes what starts with an encoding, to the value encoded and the bytes behind it, and
nothing else (`Codec.Exact`). Both halves are needed at once: a list reads a count and then that many values, and
that it stops where the list ends is the first half, that there was no other way to write the list is the second.

Each way to build a codec keeps it exact, so a codec of any shape is (`Shape.exact`).

Exactness says in one equation what would otherwise be three theorems: values are read back, nothing else is
read, and what is behind is left. It is an equivalence on the *decoder*, `decode bytes = .ok (value, rest)`, so
it is used by rewriting. Which values have an encoding is a parameter, `fits`, since a length has to fit into
the word that it is written as; for all other codecs it is no condition.

What a decoder says of bytes that it refuses is not part of it. The faults are data of the codec, they tell a
caller where and why, and a codec with other faults would be exact as well.
-/

set_option autoImplicit false

namespace BlockShuffle

namespace Codec

variable {α β : Type} {bytes rest : Bytes}

/-- Decoding takes an encoding of a value that has one off the front, and does nothing else. -/
def Exact (codec : Codec α) (fits : α → Prop) : Prop :=
  ∀ {bytes : Bytes} {value : α} {rest : Bytes},
    codec.decode bytes = .ok (value, rest) ↔ fits value ∧ bytes = codec.encode value ++ rest

theorem Exact.decode_eq_ok_iff {codec : Codec α} {fits : α → Prop} (h : codec.Exact fits) {value : α} :
    codec.decode bytes = .ok (value, rest) ↔ fits value ∧ bytes = codec.encode value ++ rest := h

/-! ## Steps of decoding -/

theorem andThen_eq_ok_iff {first : Decoded α} {next : α → Bytes → Decoded β} {value : β} :
    andThen first next = .ok (value, rest) ↔
      ∃ mid behind, first = .ok (mid, behind) ∧ next mid behind = .ok (value, rest) := by
  cases first with
  | error fault => simp [andThen]
  | ok decoded => simp [andThen, Prod.ext_iff]

theorem split_eq_ok_iff {count : Nat} {piece : Bytes} :
    split count bytes = .ok (piece, rest) ↔ piece.length = count ∧ bytes = piece ++ rest := by
  rw [split]
  constructor
  · intro h
    split at h
    · rename_i hlength
      cases h
      exact ⟨hlength, (List.take_append_drop count bytes).symm⟩
    · cases h
  · rintro ⟨hlength, rfl⟩
    rw [← hlength, List.take_left, List.drop_left, if_pos rfl]

theorem decodeNumber_eq_ok_iff {width number : Nat} :
    decodeNumber width bytes = .ok (number, rest) ↔
      number < 256 ^ width ∧ bytes = LittleEndian.encode width number ++ rest := by
  simp only [decodeNumber, andThen_eq_ok_iff, split_eq_ok_iff]
  constructor
  · rintro ⟨digits, behind, ⟨rfl, rfl⟩, h⟩
    cases h
    exact ⟨LittleEndian.decode_lt digits, by rw [LittleEndian.encode_decode]⟩
  · rintro ⟨hlt, rfl⟩
    exact ⟨_, _, ⟨LittleEndian.length_encode width number, rfl⟩, by rw [LittleEndian.decode_encode hlt]⟩

/-! ## Words -/

theorem exact_word {width : Nat} {toNat : α → Nat} {ofNat : Nat → α}
    (hlt : ∀ value, toNat value < 256 ^ width) (hback : ∀ value, ofNat (toNat value) = value)
    (hthere : ∀ number, number < 256 ^ width → toNat (ofNat number) = number) :
    (word width toNat ofNat).Exact fun _ => True := by
  intro bytes value rest
  simp only [word, andThen_eq_ok_iff, decodeNumber_eq_ok_iff]
  constructor
  · rintro ⟨number, behind, ⟨hnumber, rfl⟩, h⟩
    cases h
    exact ⟨trivial, by rw [hthere number hnumber]⟩
  · rintro ⟨-, rfl⟩
    exact ⟨_, _, ⟨hlt value, rfl⟩, by rw [hback]⟩

theorem exact_u8 : u8.Exact fun _ => True :=
  exact_word UInt8.toNat_lt (fun _ => UInt8.ofNat_toNat) fun _ => UInt8.toNat_ofNat_of_lt

theorem exact_u16 : u16.Exact fun _ => True :=
  exact_word UInt16.toNat_lt (fun _ => UInt16.ofNat_toNat) fun _ => UInt16.toNat_ofNat_of_lt

theorem exact_u32 : u32.Exact fun _ => True :=
  exact_word UInt32.toNat_lt (fun _ => UInt32.ofNat_toNat) fun _ => UInt32.toNat_ofNat_of_lt

theorem exact_u64 : u64.Exact fun _ => True :=
  exact_word UInt64.toNat_lt (fun _ => UInt64.ofNat_toNat) fun _ => UInt64.toNat_ofNat_of_lt

/-- Values that others stand for, one for one. -/
theorem Exact.through {codec : Codec α} {fits : α → Prop} (h : codec.Exact fits) {there : β → α} {back : α → β}
    (hback : ∀ value, back (there value) = value) (hthere : ∀ value, there (back value) = value) :
    (codec.through there back).Exact fun value => fits (there value) := by
  intro bytes value rest
  simp only [Codec.through, andThen_eq_ok_iff, h.decode_eq_ok_iff]
  constructor
  · rintro ⟨mid, behind, hmid, heq⟩
    cases heq
    rwa [hthere]
  · intro hvalue
    exact ⟨_, _, hvalue, by rw [hback]⟩

theorem exact_i8 : i8.Exact fun _ => True := exact_u8.through (fun _ => rfl) fun _ => rfl

theorem exact_i32 : i32.Exact fun _ => True := exact_u32.through (fun _ => rfl) fun _ => rfl

theorem exact_i64 : i64.Exact fun _ => True := exact_u64.through (fun _ => rfl) fun _ => rfl

theorem exact_blockId : blockId.Exact fun _ => True := exact_u64.through (fun _ => rfl) fun _ => rfl

/-- One byte in front. -/
theorem decode_u8_eq_ok_iff {byte : UInt8} : u8.decode bytes = .ok (byte, rest) ↔ bytes = byte :: rest := by
  have hencode : u8.encode byte = [byte] := by
    simp [u8, word, LittleEndian.encode]
  rw [exact_u8.decode_eq_ok_iff, hencode]
  simp

/-! ## Small values -/

theorem exact_unit : unit.Exact fun _ => True := by
  intro bytes value rest
  simp [unit]

theorem exact_bool : bool.Exact fun _ => True := by
  intro bytes value rest
  simp only [bool, andThen_eq_ok_iff, decode_u8_eq_ok_iff]
  constructor
  · rintro ⟨byte, behind, rfl, h⟩
    split at h
    · rename_i hzero
      cases h
      exact ⟨trivial, by rw [hzero]; rfl⟩
    · split at h
      · rename_i hone
        cases h
        exact ⟨trivial, by rw [hone]; rfl⟩
      · cases h
  · rintro ⟨-, rfl⟩
    cases value
    · exact ⟨0, rest, rfl, rfl⟩
    · exact ⟨1, rest, rfl, rfl⟩

theorem exact_char : char.Exact fun _ => True := by
  intro bytes value rest
  cases bytes with
  | nil =>
    have := Utf8.utf8EncodeChar_ne_nil value
    simp [char, this]
  | cons first behind =>
    simp only [char, true_and, ← Utf8.next_eq_ok_iff]
    cases Utf8.next first behind with
    | error length => simp
    | ok decoded => simp

theorem Exact.option {codec : Codec α} {fits : α → Prop} (h : codec.Exact fits) :
    (Codec.option codec).Exact fun value => ∀ inner ∈ value, fits inner := by
  intro bytes value rest
  simp only [Codec.option, andThen_eq_ok_iff, decode_u8_eq_ok_iff]
  constructor
  · rintro ⟨tag, behind, rfl, hvalue⟩
    rw [decodeTagged] at hvalue
    split at hvalue
    · rename_i hzero
      cases hvalue
      exact ⟨by simp, by rw [hzero]; rfl⟩
    · split at hvalue
      · rename_i hone
        obtain ⟨inner, last, hinner, heq⟩ := andThen_eq_ok_iff.mp hvalue
        obtain ⟨hfits, rfl⟩ := h.mp hinner
        cases heq
        exact ⟨by simpa using hfits, by rw [hone]; rfl⟩
      · cases hvalue
  · rintro ⟨hfits, rfl⟩
    cases value with
    | none => exact ⟨0, rest, rfl, rfl⟩
    | some inner =>
      refine ⟨1, _, rfl, ?_⟩
      rw [decodeTagged, if_neg (by decide), if_pos rfl, andThen_eq_ok_iff]
      exact ⟨inner, rest, h.mpr ⟨hfits inner rfl, rfl⟩, rfl⟩

/-! ## Several values -/

theorem Exact.pair {first : Codec α} {second : Codec β} {fits : α → Prop} {fits' : β → Prop}
    (h : first.Exact fits) (h' : second.Exact fits') :
    (Codec.pair first second).Exact fun value => fits value.1 ∧ fits' value.2 := by
  intro bytes value rest
  simp only [Codec.pair, andThen_eq_ok_iff, h.decode_eq_ok_iff, h'.decode_eq_ok_iff]
  constructor
  · rintro ⟨a, mid, ⟨ha, rfl⟩, b, behind, ⟨hb, rfl⟩, heq⟩
    cases heq
    exact ⟨⟨ha, hb⟩, by rw [List.append_assoc]⟩
  · rintro ⟨⟨ha, hb⟩, rfl⟩
    exact ⟨_, _, ⟨ha, by rw [List.append_assoc]⟩, _, _, ⟨hb, rfl⟩, rfl⟩

theorem exact_bytes : Codec.bytes.Exact fun value => value.length < UInt64.size := by
  intro bytes value rest
  simp only [Codec.bytes, andThen_eq_ok_iff, decodeNumber_eq_ok_iff, split_eq_ok_iff]
  constructor
  · rintro ⟨count, behind, ⟨hcount, rfl⟩, rfl, rfl⟩
    exact ⟨hcount, by rw [encodeCount, List.append_assoc]⟩
  · rintro ⟨hlength, rfl⟩
    exact ⟨_, _, ⟨hlength, by rw [encodeCount, List.append_assoc]⟩, rfl, rfl⟩

theorem exact_text : text.Exact fun value => (Utf8.encode value).length < UInt64.size := by
  intro bytes value rest
  simp only [text, andThen_eq_ok_iff, exact_bytes.decode_eq_ok_iff]
  constructor
  · rintro ⟨encoded, behind, ⟨hlength, rfl⟩, h⟩
    split at h
    · cases h
    · rename_i hdecode
      cases h
      rw [← Utf8.decode_eq_ok_iff.mp hdecode]
      exact ⟨hlength, rfl⟩
  · rintro ⟨hlength, rfl⟩
    refine ⟨_, _, ⟨hlength, rfl⟩, ?_⟩
    rw [Utf8.decode_eq_ok_iff.mpr rfl]

theorem decodeMany_eq_ok_iff {codec : Codec α} {fits : α → Prop} (h : codec.Exact fits) {count : Nat}
    {values : List α} : codec.decodeMany count bytes = .ok (values, rest) ↔
      values.length = count ∧ (∀ value ∈ values, fits value) ∧ bytes = values.flatMap codec.encode ++ rest := by
  induction count generalizing bytes rest values with
  | zero =>
    cases values <;> simp [decodeMany]
  | succ count ih =>
    simp only [decodeMany, andThen_eq_ok_iff, h.decode_eq_ok_iff, ih]
    constructor
    · rintro ⟨value, mid, ⟨hvalue, rfl⟩, behind, last, ⟨hlength, hfits, rfl⟩, heq⟩
      cases heq
      refine ⟨by rw [List.length_cons, hlength], ?_, by rw [List.flatMap_cons, List.append_assoc]⟩
      exact List.forall_mem_cons.mpr ⟨hvalue, hfits⟩
    · rintro ⟨hlength, hfits, rfl⟩
      cases values with
      | nil => cases hlength
      | cons value values =>
        rw [List.forall_mem_cons] at hfits
        rw [List.length_cons, Nat.succ_inj] at hlength
        exact ⟨_, _, ⟨hfits.1, by rw [List.flatMap_cons, List.append_assoc]⟩, _, _, ⟨hlength, hfits.2, rfl⟩, rfl⟩

theorem Exact.list {codec : Codec α} {fits : α → Prop} (h : codec.Exact fits) :
    (Codec.list codec).Exact fun values => values.length < UInt64.size ∧ ∀ value ∈ values, fits value := by
  intro bytes values rest
  simp only [Codec.list, andThen_eq_ok_iff, decodeNumber_eq_ok_iff, decodeMany_eq_ok_iff h]
  constructor
  · rintro ⟨count, behind, ⟨hcount, rfl⟩, rfl, hfits, rfl⟩
    exact ⟨⟨hcount, hfits⟩, by rw [encodeCount, List.append_assoc]⟩
  · rintro ⟨⟨hlength, hfits⟩, rfl⟩
    exact ⟨_, _, ⟨hlength, by rw [encodeCount, List.append_assoc]⟩, rfl, hfits, rfl⟩

end Codec

/-! ## Every shape -/

/-- **The codec of a shape is exact.** -/
theorem Shape.exact (shape : Shape) : shape.codec.Exact shape.Fits := by
  induction shape with
  | unit => exact Codec.exact_unit
  | bool => exact Codec.exact_bool
  | u8 => exact Codec.exact_u8
  | u16 => exact Codec.exact_u16
  | u32 => exact Codec.exact_u32
  | u64 => exact Codec.exact_u64
  | i8 => exact Codec.exact_i8
  | i32 => exact Codec.exact_i32
  | i64 => exact Codec.exact_i64
  | char => exact Codec.exact_char
  | text => exact Codec.exact_text
  | bytes => exact Codec.exact_bytes
  | blockId => exact Codec.exact_blockId
  | option value ih => exact ih.option
  | list value ih => exact ih.list
  | pair first second ih ih' => exact ih.pair ih'

end BlockShuffle
