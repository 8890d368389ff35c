import Mathlib
import BlockShuffle.IndexEntry
import BlockShuffle.Proofs.LittleEndian

/-!
# What an index says after any appends

Entries are of one width, so the entries of a string of bytes are found from its front and nothing behind
them moves them. `decodeAll_append` is that fact: behind whole entries, more bytes add their own entries
and change none. With the round trip of one entry (`ofBytes_encode`) it says what is in an index that was
written by appends, the last of which may have been cut short at any byte (`decodeAll_take_encodeAll`):
the entries of the appends before it, and of the last one those that are there in full.

The other round trip (`encode_ofBytes`) says that entries and bytes are the same thing, up to the bytes at the
end that form no entry (`exists_tail`); `index_format_bijective` puts both together.

Nothing in this module asks what an entry says. Lengths may be wrong, offsets may overlap, and ids may be
nobody's: a format that can be decoded in one way only is worth having because the meaning is judged later, by a
plan, and an index that was cut short has to be decodable for that. The statements are about every string of
bytes, not only about those that somebody wrote.

Fields are read as slices at fixed places, and that the places fit together is used once, for `ofBytes_encode`
and `encode_ofBytes`. A further field would change these two and the size.
-/

set_option autoImplicit false

namespace BlockShuffle.IndexEntry

/-! ## One entry -/

@[simp] theorem length_encode (entry : IndexEntry) : entry.encode.length = size := by
  simp [encode, size]

theorem field_append {bytes : Bytes} (rest : Bytes) {start width : Nat}
    (h : start + width ≤ bytes.length) : field (bytes ++ rest) start width = field bytes start width := by
  rw [field, field, List.drop_append_of_le_length (by omega), List.take_append_of_le_length]
  rw [List.length_drop]
  omega

/-- Only the first 36 bytes are looked at. -/
theorem ofBytes_append {bytes : Bytes} (rest : Bytes) (h : size ≤ bytes.length) :
    ofBytes (bytes ++ rest) = ofBytes bytes := by
  rw [size] at h
  simp only [ofBytes]
  rw [field_append rest (by omega), field_append rest (by omega), field_append rest (by omega),
    field_append rest (by omega), field_append rest (by omega), field_append rest (by omega)]

theorem ofBytes_encode (entry : IndexEntry) : ofBytes entry.encode = entry := by
  obtain ⟨length, uncompressedLength, crc, ⟨id⟩, task, offset⟩ := entry
  have word (value : UInt32) : LittleEndian.decode (LittleEndian.encode 4 value.toNat) = value.toNat :=
    LittleEndian.decode_encode value.toNat_lt
  have long (value : UInt64) : LittleEndian.decode (LittleEndian.encode 8 value.toNat) = value.toNat :=
    LittleEndian.decode_encode value.toNat_lt
  -- A field is cut out of the words one by one, and each word is in it whole or not at all.
  simp only [ofBytes, encode, field, List.drop_append, List.take_append, LittleEndian.length_encode]
  simp (disch := simp) [List.drop_of_length_le, List.take_of_length_le, word, long]

/-- The bytes of a field are the word that it is read as. -/
theorem encode_field {bytes : Bytes} {start width : Nat} (h : start + width ≤ bytes.length) :
    LittleEndian.encode width (field bytes start width) = (bytes.drop start).take width := by
  have hlength : ((bytes.drop start).take width).length = width := by
    rw [List.length_take, List.length_drop]
    omega
  have hword := LittleEndian.encode_decode ((bytes.drop start).take width)
  rw [hlength] at hword
  exact hword

theorem field_lt (bytes : Bytes) (start width : Nat) : field bytes start width < 256 ^ width := by
  apply Nat.lt_of_lt_of_le (LittleEndian.decode_lt _)
  exact Nat.pow_le_pow_right (by decide) (List.length_take_le _ _)

/-- **No two strings of 36 bytes are read as one entry.** -/
theorem encode_ofBytes {bytes : Bytes} (h : size ≤ bytes.length) :
    (ofBytes bytes).encode = bytes.take size := by
  have word (start : Nat) : (UInt32.ofNat (field bytes start 4)).toNat = field bytes start 4 :=
    UInt32.toNat_ofNat_of_lt (field_lt bytes start 4)
  have long (start : Nat) : (UInt64.ofNat (field bytes start 8)).toNat = field bytes start 8 :=
    UInt64.toNat_ofNat_of_lt (field_lt bytes start 8)
  rw [size] at h ⊢
  simp only [encode, ofBytes, word, long]
  rw [encode_field (by omega), encode_field (by omega), encode_field (by omega), encode_field (by omega),
    encode_field (by omega), encode_field (by omega)]
  rw [List.drop_zero, ← List.take_add, ← List.take_add, ← List.take_add, ← List.take_add, ← List.take_add]

/-! ## Many entries -/

theorem decodeAll_of_length_lt {bytes : Bytes} (h : bytes.length < size) :
    decodeAll bytes = ([], bytes.length) := by
  rw [decodeAll, if_pos]
  rw [List.length_take]
  omega

@[simp] theorem decodeAll_nil : decodeAll [] = ([], 0) := decodeAll_of_length_lt (by decide)

theorem decodeAll_of_size_le {bytes : Bytes} (h : size ≤ bytes.length) :
    decodeAll bytes =
      (ofBytes bytes :: (decodeAll (bytes.drop size)).1, (decodeAll (bytes.drop size)).2) := by
  rw [decodeAll, if_neg]
  rw [List.length_take]
  omega

/-- **Whole entries stay what they are** when bytes are put behind them. -/
theorem decodeAll_append {bytes : Bytes} (rest : Bytes) (h : bytes.length % size = 0) :
    decodeAll (bytes ++ rest) = ((decodeAll bytes).1 ++ (decodeAll rest).1, (decodeAll rest).2) := by
  induction bytes using decodeAll.induct with
  | case1 bytes hshort =>
    rw [List.length_take] at hshort
    have hnil : bytes = [] := by
      apply List.eq_nil_of_length_eq_zero
      rw [Nat.mod_eq_of_lt (by omega)] at h
      exact h
    rw [hnil, List.nil_append, decodeAll_nil, List.nil_append]
  | case2 bytes hlong _ _ _ ih =>
    rw [List.length_take] at hlong
    have hle : size ≤ bytes.length := by omega
    have hdrop : (bytes.drop size).length % size = 0 := by
      rw [List.length_drop, ← Nat.mod_eq_sub_mod hle]
      exact h
    rw [decodeAll_of_size_le (by rw [List.length_append]; omega), decodeAll_of_size_le hle,
      List.drop_append_of_le_length hle, ih hdrop, ofBytes_append rest hle]
    rfl

/-- The bytes that form no entry say nothing. -/
theorem decodeAll_take_whole (bytes : Bytes) :
    (decodeAll (bytes.take (bytes.length - bytes.length % size))).1 = (decodeAll bytes).1 := by
  have hwhole : (bytes.take (bytes.length - bytes.length % size)).length % size = 0 := by
    rw [List.length_take, Nat.min_eq_left (Nat.sub_le _ _)]
    exact Nat.sub_mod_eq_zero_of_mod_eq (Nat.mod_mod _ _).symm
  have hrest : (bytes.drop (bytes.length - bytes.length % size)).length < size := by
    have := Nat.mod_lt bytes.length (show 0 < size by decide)
    rw [List.length_drop]
    omega
  conv => rhs; rw [← List.take_append_drop (bytes.length - bytes.length % size) bytes]
  rw [decodeAll_append _ hwhole, decodeAll_of_length_lt hrest, List.append_nil]

@[simp] theorem encodeAll_nil : encodeAll [] = [] := rfl

@[simp] theorem encodeAll_cons (entry : IndexEntry) (entries : List IndexEntry) :
    encodeAll (entry :: entries) = entry.encode ++ encodeAll entries := rfl

theorem length_encodeAll (entries : List IndexEntry) :
    (encodeAll entries).length = entries.length * size := by
  induction entries with
  | nil => rw [encodeAll_nil, List.length_nil, List.length_nil, Nat.zero_mul]
  | cons entry entries ih =>
    rw [encodeAll_cons, List.length_append, ih, length_encode, List.length_cons, Nat.succ_mul,
      Nat.add_comm]

/-- **An append that was cut short left the entries that are there in full.** -/
theorem decodeAll_take_encodeAll (entries : List IndexEntry) (count : Nat) :
    (decodeAll ((encodeAll entries).take count)).1 = entries.take (count / size) := by
  induction entries generalizing count with
  | nil => rw [encodeAll_nil, List.take_nil, List.take_nil, decodeAll_nil]
  | cons entry entries ih =>
    rw [encodeAll_cons]
    by_cases h : count < size
    · rw [decodeAll_of_length_lt, Nat.div_eq_of_lt h, List.take_zero]
      rw [List.length_take]
      omega
    · -- The first entry is whole, and the cut falls behind it.
      have hcount : count / size = (count - size) / size + 1 := by
        rw [Nat.div_eq_sub_div (by decide) (by omega)]
      rw [List.take_append, List.take_of_length_le (by rw [length_encode]; omega), length_encode,
        decodeAll_append _ (by rw [length_encode, Nat.mod_self]), ih, hcount, List.take_succ_cons,
        decodeAll_of_size_le (by rw [length_encode]), ofBytes_encode,
        List.drop_of_length_le (by rw [length_encode]), decodeAll_nil]
      rfl

theorem decodeAll_encodeAll (entries : List IndexEntry) : (decodeAll (encodeAll entries)).1 = entries := by
  have h := decodeAll_take_encodeAll entries (entries.length * size)
  rw [← length_encodeAll, List.take_length, length_encodeAll,
    Nat.mul_div_cancel _ (by decide), List.take_length] at h
  exact h

/-- **Any string of bytes is whole entries and fewer bytes than one takes.** -/
theorem exists_tail (bytes : Bytes) :
    ∃ tail, bytes = encodeAll (decodeAll bytes).1 ++ tail ∧ tail.length < size := by
  induction bytes using decodeAll.induct with
  | case1 bytes hshort =>
    rw [List.length_take] at hshort
    have hlt : bytes.length < size := by omega
    exact ⟨bytes, by rw [decodeAll_of_length_lt hlt, encodeAll_nil, List.nil_append], hlt⟩
  | case2 bytes hlong _ _ _ ih =>
    rw [List.length_take] at hlong
    have hle : size ≤ bytes.length := by omega
    obtain ⟨tail, hrest, htail⟩ := ih
    refine ⟨tail, ?_, htail⟩
    rw [decodeAll_of_size_le hle, encodeAll_cons, encode_ofBytes hle, List.append_assoc, ← hrest,
      List.take_append_drop]

/-- More bytes behind an index add entries behind those that are in it. -/
theorem decodeAll_mono (bytes more : Bytes) : (decodeAll bytes).1 <+: (decodeAll (bytes ++ more)).1 := by
  obtain ⟨tail, hsplit, -⟩ := exists_tail bytes
  have hwhole : (encodeAll (decodeAll bytes).1).length % size = 0 := by
    rw [length_encodeAll, Nat.mul_mod_left]
  conv => rhs; rw [hsplit, List.append_assoc, decodeAll_append _ hwhole, decodeAll_encodeAll]
  exact List.prefix_append _ _

/-! ## Both ways -/

/-- Whole entries and fewer bytes than one takes are told apart. -/
theorem decodeAll_encodeAll_append (entries : List IndexEntry) {tail : Bytes} (h : tail.length < size) :
    decodeAll (encodeAll entries ++ tail) = (entries, tail.length) := by
  have hwhole : (encodeAll entries).length % size = 0 := by
    rw [length_encodeAll, Nat.mul_mod_left]
  rw [decodeAll_append tail hwhole, decodeAll_encodeAll, decodeAll_of_length_lt h, List.append_nil]

/-- What is counted as left over is what the entries leave. -/
theorem encodeAll_of_decodeAll {bytes : Bytes} {entries : List IndexEntry} {trailing : Nat}
    (h : decodeAll bytes = (entries, trailing)) :
    trailing < size ∧ trailing ≤ bytes.length ∧
      encodeAll entries ++ bytes.drop (bytes.length - trailing) = bytes := by
  obtain ⟨tail, hsplit, htail⟩ := exists_tail bytes
  rw [h] at hsplit
  have hcount : trailing = tail.length := by
    rw [hsplit, decodeAll_encodeAll_append entries htail] at h
    exact (Prod.mk.inj h).2.symm
  have hlength : bytes.length - trailing = (encodeAll entries).length := by
    rw [hsplit, List.length_append, hcount, Nat.add_sub_cancel]
  refine ⟨hcount ▸ htail, ?_, ?_⟩
  · rw [hsplit, hcount, List.length_append]
    exact Nat.le_add_left _ _
  · rw [hlength, hsplit, List.drop_left]

/-- One entry is read by the rule by which many are. -/
theorem decode_eq_ok_iff {bytes : Bytes} {entry : IndexEntry} :
    decode bytes = .ok entry ↔ (decodeAll bytes).1.head? = some entry := by
  rw [decode]
  split
  · rename_i h
    rw [decodeAll_of_size_le h, List.head?_cons, Except.ok.injEq, Option.some.injEq]
  · rename_i h
    rw [decodeAll_of_length_lt (Nat.lt_of_not_le h)]
    constructor <;> intro heq <;> cases heq

theorem exists_decode_iff (bytes : Bytes) : (∃ entry, decode bytes = .ok entry) ↔ size ≤ bytes.length := by
  rw [decode]
  split
  · rename_i h
    exact ⟨fun _ => h, fun _ => ⟨_, rfl⟩⟩
  · rename_i h
    exact ⟨fun ⟨_, heq⟩ => (by cases heq), fun heq => absurd heq h⟩

/-- **Indexes and lists of entries are the same thing**, up to fewer bytes at the end than an entry takes: what
was written is read, what is read was written, and one entry is read exactly where there is a first one. -/
theorem index_format_bijective :
    (∀ (entries : List IndexEntry) (tail : Bytes), tail.length < size →
      decodeAll (encodeAll entries ++ tail) = (entries, tail.length)) ∧
    (∀ (bytes : Bytes) (entries : List IndexEntry) (trailing : Nat), decodeAll bytes = (entries, trailing) →
      trailing < size ∧ trailing ≤ bytes.length ∧
        encodeAll entries ++ bytes.drop (bytes.length - trailing) = bytes) ∧
    ∀ bytes : Bytes, ((∃ entry, decode bytes = .ok entry) ↔ size ≤ bytes.length) ∧
      ∀ entry, decode bytes = .ok entry ↔ (decodeAll bytes).1.head? = some entry := by
  refine ⟨?_, ?_, ?_⟩
  · intro entries tail htail
    exact decodeAll_encodeAll_append entries htail
  · intro bytes entries trailing h
    exact encodeAll_of_decodeAll h
  · intro bytes
    exact ⟨exists_decode_iff bytes, fun entry => decode_eq_ok_iff⟩

/-- Two entries at the limits of their fields. -/
def entriesAtLimits : List IndexEntry :=
  [⟨0xFFFFFFFF, 0, 0xFFFFFFFF, ⟨0⟩, 0xFFFFFFFFFFFFFFFF, 0⟩, ⟨0, 1, 0, ⟨0xFFFFFFFFFFFFFFFF⟩, 0, 0xFFFFFFFFFFFFFFFF⟩]

/-- Behind them, an append was cut short one byte before the end of a third. -/
theorem index_format_bijective_oneByteShort :
    let tail : Bytes := List.replicate 35 0xFF
    let bytes := encodeAll entriesAtLimits ++ tail
    tail.length < size ∧ decodeAll bytes = (entriesAtLimits, 35) ∧ bytes.drop (107 - 35) = tail ∧
      decode bytes = .ok ⟨0xFFFFFFFF, 0, 0xFFFFFFFF, ⟨0⟩, 0xFFFFFFFFFFFFFFFF, 0⟩ := by
  intro tail bytes
  have htail : tail.length < size := by decide
  have hread := index_format_bijective.1 entriesAtLimits tail htail
  have hwritten := (index_format_bijective.2.1 bytes entriesAtLimits 35 hread).2.2
  refine ⟨htail, hread, List.append_cancel_left hwritten, ?_⟩
  rw [(index_format_bijective.2.2 bytes).2, hread]
  rfl

end BlockShuffle.IndexEntry
