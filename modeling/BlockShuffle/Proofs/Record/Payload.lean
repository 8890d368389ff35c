import Mathlib
import BlockShuffle.Proofs.Record.Exact

/-!
# Records without framing

The records of a payload stand one behind the other with nothing between them. That is enough where every record
is decoded exactly: records in front of any bytes are read as they were written, and then the bytes are read as if
nothing had been in front (`decodeAll_encodeAll_append`). From this everything else follows. There is one payload
for a list of records and one list for a payload (`decodeAll_eq_ok_iff`), and a payload that was cut can be read
only if it was cut between two records (`exists_cut_of_decodeAll_take`).

A payload has no header, no count and no checksum of its own, so the end of the records is the end of the bytes.
That a payload was cut between two records is therefore not noticed when it is decoded, which
`exists_cut_of_decodeAll_take` says with the rest: it is the block around the payload that has a length and a
checksum. An empty payload is the payload of no record.

The theorems ask of the records that they fit, which all records do whose lengths are below 2⁶⁴, and nothing of
the bytes. They are about any exact codec of records; the ten record types come in with the last theorem alone.
-/

set_option autoImplicit false

namespace BlockShuffle

namespace RecordCodec

variable {α : Type} {codec : RecordCodec α} {fits : α → Prop} {payload rest : Bytes} {record : α}

@[simp] theorem encodeAll_nil : codec.encodeAll [] = [] := rfl

@[simp] theorem encodeAll_cons (record : α) (records : List α) :
    codec.encodeAll (record :: records) = codec.encode record ++ codec.encodeAll records := rfl

theorem encodeAll_append (records more : List α) :
    codec.encodeAll (records ++ more) = codec.encodeAll records ++ codec.encodeAll more :=
  List.flatMap_append

/-! ## Reading records one by one -/

@[simp] theorem decodeAll_nil : codec.decodeAll [] = .ok [] := by
  rw [decodeAll, if_pos List.isEmpty_nil]

/-- Reading a record takes at least one byte, so reading goes on with fewer. -/
theorem length_lt_of_decode (h : codec.decode payload = .ok (record, rest)) : rest.length < payload.length := by
  have := codec.decode_takes payload record rest h
  have := codec.least_pos
  omega

theorem decodeAll_of_ne_nil (hne : ¬ payload.isEmpty) : codec.decodeAll payload =
    match codec.decode payload with
    | .error fault => .error fault
    | .ok (record, rest) => (codec.decodeAll rest).map (record :: ·) := by
  rw [decodeAll, if_neg hne]
  split <;> rename_i hdecode <;> rw [hdecode]

theorem decodeAll_of_decode (h : codec.decode payload = .ok (record, rest)) :
    codec.decodeAll payload = (codec.decodeAll rest).map (record :: ·) := by
  have hlt := length_lt_of_decode h
  have hne : ¬ payload.isEmpty := by
    cases payload with
    | nil => cases hlt
    | cons _ _ => simp
  rw [decodeAll_of_ne_nil hne, h]

/-- **Records in front are read as they were written, and change nothing behind them.** -/
theorem decodeAll_encodeAll_append (h : codec.Exact fits) {records : List α}
    (hfits : ∀ record ∈ records, fits record) (rest : Bytes) :
    codec.decodeAll (codec.encodeAll records ++ rest) = (codec.decodeAll rest).map (records ++ ·) := by
  induction records with
  | nil =>
    rw [encodeAll_nil, List.nil_append]
    cases codec.decodeAll rest <;> rfl
  | cons record records ih =>
    rw [List.forall_mem_cons] at hfits
    have hfirst : codec.decode (codec.encodeAll (record :: records) ++ rest) =
        .ok (record, codec.encodeAll records ++ rest) :=
      h.mpr ⟨hfits.1, by rw [encodeAll_cons, List.append_assoc]⟩
    rw [decodeAll_of_decode hfirst, ih hfits.2]
    cases codec.decodeAll rest <;> rfl

theorem decodeAll_encodeAll (h : codec.Exact fits) {records : List α}
    (hfits : ∀ record ∈ records, fits record) : codec.decodeAll (codec.encodeAll records) = .ok records := by
  have hread := decodeAll_encodeAll_append h hfits []
  rw [List.append_nil, decodeAll_nil] at hread
  rw [hread, Except.map, List.append_nil]

/-- **A payload is read exactly where it was written.** -/
theorem decodeAll_eq_ok_iff (h : codec.Exact fits) {records : List α} :
    codec.decodeAll payload = .ok records ↔
      (∀ record ∈ records, fits record) ∧ payload = codec.encodeAll records := by
  constructor
  · intro hread
    induction payload using decodeAll.induct codec generalizing records with
    | case1 payload hempty =>
      rw [List.isEmpty_iff] at hempty
      rw [hempty, decodeAll_nil] at hread
      cases hread
      exact ⟨by simp, hempty⟩
    | case2 payload hne fault hdecode =>
      rw [decodeAll_of_ne_nil hne, hdecode] at hread
      cases hread
    | case3 payload hne record rest hdecode ih =>
      rw [decodeAll_of_decode hdecode] at hread
      obtain ⟨records, hrest, rfl⟩ := map_eq_ok_iff.mp hread
      obtain ⟨hfits, hsplit⟩ := h.mp hdecode
      obtain ⟨hfits', rfl⟩ := ih hrest
      exact ⟨List.forall_mem_cons.mpr ⟨hfits, hfits'⟩, hsplit⟩
  · rintro ⟨hfits, rfl⟩
    exact decodeAll_encodeAll h hfits

/-! ## Payloads that were cut -/

/-- **What can be read of a payload that was cut are its first records, and it was cut behind them.** -/
theorem exists_cut_of_decodeAll_take (h : codec.Exact fits) {records found : List α}
    (hfits : ∀ record ∈ records, fits record) {length : Nat} (hlength : length ≤ (codec.encodeAll records).length)
    (hread : codec.decodeAll ((codec.encodeAll records).take length) = .ok found) :
    ∃ count, found = records.take count ∧ length = (codec.encodeAll (records.take count)).length := by
  obtain ⟨hfound, hcut⟩ := (decodeAll_eq_ok_iff h).mp hread
  have hwhole : codec.encodeAll records = codec.encodeAll found ++ (codec.encodeAll records).drop length := by
    rw [← hcut, List.take_append_drop]
  -- Read on behind the cut: what was found is in front of the rest.
  have hall := decodeAll_encodeAll h hfits
  rw [hwhole, decodeAll_encodeAll_append h hfound] at hall
  obtain ⟨more, hmore⟩ : ∃ more, found ++ more = records := by
    cases hrest : codec.decodeAll ((codec.encodeAll records).drop length) with
    | error fault =>
      rw [hrest] at hall
      cases hall
    | ok more =>
      rw [hrest] at hall
      exact ⟨more, Except.ok.inj hall⟩
  have htake : records.take found.length = found := by
    rw [← hmore, List.take_left]
  refine ⟨found.length, htake.symm, ?_⟩
  rw [htake, ← hcut, List.length_take, Nat.min_eq_left hlength]

theorem decodeAll_take (h : codec.Exact fits) {records : List α} (hfits : ∀ record ∈ records, fits record)
    (count : Nat) :
    codec.decodeAll ((codec.encodeAll records).take (codec.encodeAll (records.take count)).length) =
      .ok (records.take count) := by
  conv => lhs; rw [← List.take_append_drop count records, encodeAll_append, List.take_append_drop, List.take_left]
  exact decodeAll_encodeAll h fun record hrecord => hfits record (List.mem_of_mem_take hrecord)

/-! ## The record types -/

/-- What records do without anything between them. -/
structure SelfDelimiting (codec : RecordCodec α) (fits : α → Prop) : Prop where
  /-- Records are read as they were written. -/
  whole : ∀ records, (∀ record ∈ records, fits record) → codec.decodeAll (codec.encodeAll records) = .ok records
  /-- What is behind them is read as if they were not there, and fails as if they were not there. -/
  inFront : ∀ records rest, (∀ record ∈ records, fits record) →
    codec.decodeAll (codec.encodeAll records ++ rest) = (codec.decodeAll rest).map (records ++ ·)
  /-- There is one payload for a list of records. -/
  canonical : ∀ payload records, codec.decodeAll payload = .ok records → codec.encodeAll records = payload
  /-- A payload that was cut between two records has those in front of the cut. -/
  cutBetween : ∀ records count, (∀ record ∈ records, fits record) →
    codec.decodeAll ((codec.encodeAll records).take (codec.encodeAll (records.take count)).length) =
      .ok (records.take count)
  /-- One that was cut anywhere else is not a payload. -/
  cutInside : ∀ records length, (∀ record ∈ records, fits record) → length ≤ (codec.encodeAll records).length →
    (∀ count, length ≠ (codec.encodeAll (records.take count)).length) →
    ∃ fault, codec.decodeAll ((codec.encodeAll records).take length) = .error fault
  /-- Behind each record there are fewer bytes to read, so reading ends. -/
  ends : ∀ payload record rest, codec.decode payload = .ok (record, rest) → rest.length < payload.length

end RecordCodec

/-- **Records of every type are self-delimiting, and have one encoding.** -/
theorem RecordType.records_self_delimiting (type : RecordType) :
    type.codec.SelfDelimiting type.shape.Fits := by
  have hexact : type.codec.Exact type.shape.Fits := type.shape.exact
  constructor
  · intro records hfits
    exact RecordCodec.decodeAll_encodeAll hexact hfits
  · intro records rest hfits
    exact RecordCodec.decodeAll_encodeAll_append hexact hfits rest
  · intro payload records hread
    exact ((RecordCodec.decodeAll_eq_ok_iff hexact).mp hread).2.symm
  · intro records count hfits
    exact RecordCodec.decodeAll_take hexact hfits count
  · intro records length hfits hlength hcut
    cases hread : type.codec.decodeAll ((type.codec.encodeAll records).take length) with
    | error fault => exact ⟨fault, rfl⟩
    | ok found =>
      obtain ⟨count, -, heq⟩ := RecordCodec.exists_cut_of_decodeAll_take hexact hfits hlength hread
      exact absurd heq (hcut count)
  · intro payload record rest hdecode
    exact RecordCodec.length_lt_of_decode hdecode

/-- Two records with lists of texts, one of them with characters of one to four bytes. -/
def recordsOfTexts : List RecordType.i64Texts.shape.Value := [(-1, ["aé", "𝄞"]), (5, [])]

/-- Between them they can be cut, and one byte before that they cannot. -/
theorem RecordType.records_self_delimiting_texts :
    let codec := RecordType.i64Texts.codec
    let payload := codec.encodeAll recordsOfTexts
    payload.length = 55 ∧ codec.decodeAll payload = .ok recordsOfTexts ∧
      codec.decodeAll (payload ++ [7]) = .error .endOfInput ∧
      codec.decodeAll (payload.take 39) = .ok (recordsOfTexts.take 1) ∧
      ∃ fault, codec.decodeAll (payload.take 38) = .error fault := by
  intro codec payload
  have hfits : ∀ record ∈ recordsOfTexts, RecordType.i64Texts.shape.Fits record := by decide +kernel
  have hlimited := RecordType.records_self_delimiting .i64Texts
  have hfirst : (codec.encodeAll (recordsOfTexts.take 1)).length = 39 := by decide +kernel
  have hall : payload.length = 55 := by decide +kernel
  refine ⟨hall, hlimited.whole _ hfits, ?_, ?_, ?_⟩
  · rw [hlimited.inFront _ [7] hfits, RecordCodec.decodeAll_of_ne_nil (by decide)]
    rfl
  · rw [← hfirst]
    exact hlimited.cutBetween recordsOfTexts 1 hfits
  · refine hlimited.cutInside recordsOfTexts 38 hfits (by rw [hall]; decide) fun count => ?_
    match count with
    | 0 => decide
    | 1 => rw [hfirst]; decide
    | count + 2 =>
      rw [List.take_of_length_le (Nat.le_add_left 2 count), hall]
      decide

end BlockShuffle
