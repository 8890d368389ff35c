import Mathlib
import BlockShuffle.Proofs.Results
import BlockShuffle.Record.Utf8

/-!
# What is read as a text is what was written

`Spells` says which bytes make a character, and which number they make. What `next` reads is spelled that way
(`spells_of_next`), what is spelled that way is the encoding of the character it makes (`Spells.encode`), and every
character is spelled by its encoding (`spells_encode`). The ranges of the second byte are what keeps a number from
being spelled in two ways: without them a character would have longer forms, and the forms of surrogates would make
no character.

So decoding is exact for a character (`next_eq_ok_iff`) and for a text (`decode_eq_ok_iff`): it succeeds on the
encoding and on nothing else.

`Spells` is the table of the standard written as a relation, four constructors for the four widths, with the
number that the bytes make. It is needed because neither side is convenient by itself: the decoder tests bytes
against ranges, and the library's encoder divides a number. Both are compared with the relation, the decoder by
its cases and the encoder by arithmetic, and nothing in either of them is unfolded a second time.

What a fault says of bytes that are no text is not treated. That there is a fault exactly when there is no text
is the equivalence read the other way round; where it points is for whoever reads the message.
-/

set_option autoImplicit false

namespace BlockShuffle.Utf8

/-! ## Bytes as numbers -/

theorem isContinuation_iff {byte : UInt8} :
    isContinuation byte = true ↔ 0x80 ≤ byte.toNat ∧ byte.toNat ≤ 0xBF := by
  rw [isContinuation, Bool.and_eq_true, decide_eq_true_iff, decide_eq_true_iff, UInt8.le_iff_toNat_le,
    UInt8.le_iff_toNat_le]
  rfl

/-- How wide a character is, by the number of its first byte. -/
theorem width_eq (first : UInt8) : width first =
    if first.toNat ≤ 0x7F then 1
    else if 0xC2 ≤ first.toNat ∧ first.toNat ≤ 0xDF then 2
    else if 0xE0 ≤ first.toNat ∧ first.toNat ≤ 0xEF then 3
    else if 0xF0 ≤ first.toNat ∧ first.toNat ≤ 0xF4 then 4
    else 0 := by
  simp only [width, Bool.and_eq_true, decide_eq_true_iff, UInt8.le_iff_toNat_le]
  rfl

/-- Which second bytes there are: none that would make a character that has a shorter form, a surrogate, or a
number past the last character. -/
theorem canFollow_iff {first second : UInt8} :
    canFollow first second = true ↔ (0x80 ≤ second.toNat ∧ second.toNat ≤ 0xBF) ∧
      (first.toNat = 0xE0 → 0xA0 ≤ second.toNat) ∧ (first.toNat = 0xED → second.toNat ≤ 0x9F) ∧
      (first.toNat = 0xF0 → 0x90 ≤ second.toNat) ∧ (first.toNat = 0xF4 → second.toNat ≤ 0x8F) := by
  have hfirst (byte : UInt8) : first = byte ↔ first.toNat = byte.toNat := UInt8.toNat_inj.symm
  simp only [canFollow, Bool.and_eq_true, decide_eq_true_iff, UInt8.le_iff_toNat_le, hfirst]
  simp only [UInt8.reduceToNat]
  split_ifs <;> simp <;> omega

/-! ## One character -/

/-- The bytes that spell a character, and the number they spell. -/
inductive Spells : Bytes → Nat → Prop where
  | one {a : UInt8} (first : a.toNat ≤ 0x7F) : Spells [a] a.toNat
  | two {a b : UInt8} (first : 0xC2 ≤ a.toNat ∧ a.toNat ≤ 0xDF) (second : canFollow a b = true) :
      Spells [a, b] (a.toNat % 32 * 64 + payload b)
  | three {a b c : UInt8} (first : 0xE0 ≤ a.toNat ∧ a.toNat ≤ 0xEF) (second : canFollow a b = true)
      (third : isContinuation c = true) :
      Spells [a, b, c] (a.toNat % 16 * 4096 + payload b * 64 + payload c)
  | four {a b c d : UInt8} (first : 0xF0 ≤ a.toNat ∧ a.toNat ≤ 0xF4) (second : canFollow a b = true)
      (third : isContinuation c = true) (fourth : isContinuation d = true) :
      Spells [a, b, c, d] (a.toNat % 8 * 262144 + payload b * 4096 + payload c * 64 + payload d)

/-- The first byte of a character of two bytes, and so on. -/
theorem first_of_width (first : UInt8) :
    (width first = 1 → first.toNat ≤ 0x7F) ∧
    (width first = 2 → 0xC2 ≤ first.toNat ∧ first.toNat ≤ 0xDF) ∧
    (width first = 3 → 0xE0 ≤ first.toNat ∧ first.toNat ≤ 0xEF) ∧
    (width first = 4 → 0xF0 ≤ first.toNat ∧ first.toNat ≤ 0xF4) := by
  rw [width_eq]
  refine ⟨?_, ?_, ?_, ?_⟩ <;> intro h <;> split_ifs at h <;> omega

theorem spells_of_next {first : UInt8} {rest : Bytes} {c : Char} {behind : Bytes}
    (h : next first rest = .ok (c, behind)) :
    ∃ bytes n, first :: rest = bytes ++ behind ∧ Spells bytes n ∧ c = Char.ofNat n := by
  obtain ⟨hone, htwo, hthree, hfour⟩ := first_of_width first
  -- Each width has its own test of the second byte; those behind it are continuations, or nothing is spelled.
  rw [next.eq_def] at h
  split at h
  case h_1 hwidth =>
    cases h
    exact ⟨_, _, rfl, .one (hone hwidth), rfl⟩
  case h_2 second rest hwidth =>
    split at h
    · rename_i hsecond
      cases h
      exact ⟨_, _, rfl, .two (htwo hwidth) hsecond, rfl⟩
    · cases h
  case h_3 second rest hwidth =>
    split at h
    · rename_i hsecond
      match rest, h with
      | third :: rest, h =>
        dsimp only at h
        split at h
        · rename_i hthird
          cases h
          exact ⟨_, _, rfl, .three (hthree hwidth) hsecond hthird, rfl⟩
        · cases h
    · cases h
  case h_4 second rest hwidth =>
    split at h
    · rename_i hsecond
      match rest, h with
      | third :: rest, h =>
        dsimp only at h
        split at h
        · rename_i hthird
          match rest, h with
          | fourth :: rest, h =>
            dsimp only at h
            split at h
            · rename_i hfourth
              cases h
              exact ⟨_, _, rfl, .four (hfour hwidth) hsecond hthird hfourth, rfl⟩
            · cases h
        · cases h
    · cases h
  all_goals cases h

/-- The characters that bytes spell are the ones that are read. -/
theorem next_of_spells {first : UInt8} {tail : Bytes} {n : Nat} (h : Spells (first :: tail) n) (behind : Bytes) :
    next first (tail ++ behind) = .ok (Char.ofNat n, behind) := by
  have hwidth := width_eq first
  rw [next.eq_def]
  cases h with
  | one hfirst =>
    rw [if_pos hfirst] at hwidth
    rw [hwidth]
    rfl
  | two hfirst hsecond =>
    rw [if_neg (by omega), if_pos hfirst] at hwidth
    rw [hwidth]
    simp only [List.cons_append, List.nil_append]
    rw [if_pos hsecond]
  | three hfirst hsecond hthird =>
    rw [if_neg (by omega), if_neg (by omega), if_pos hfirst] at hwidth
    rw [hwidth]
    simp only [List.cons_append, List.nil_append]
    rw [if_pos hsecond, if_pos hthird]
  | four hfirst hsecond hthird hfourth =>
    rw [if_neg (by omega), if_neg (by omega), if_neg (by omega), if_pos hfirst] at hwidth
    rw [hwidth]
    simp only [List.cons_append, List.nil_append]
    rw [if_pos hsecond, if_pos hthird, if_pos hfourth]

/-- A number below 256 is the byte of it. -/
theorem ofNat_eq_of_eq {n : Nat} (byte : UInt8) (h : n = byte.toNat) : UInt8.ofNat n = byte := by
  rw [h, UInt8.ofNat_toNat]

/-- What spells a character is its encoding. -/
theorem Spells.encode {bytes : Bytes} {n : Nat} (h : Spells bytes n) :
    String.utf8EncodeChar (Char.ofNat n) = bytes := by
  have hencode (hvalid : n.isValidChar) : (Char.ofNat n).val.toNat = n := by
    rw [← Char.toNat, Char.toNat_ofNat, if_pos hvalid]
  rw [String.utf8EncodeChar]
  unfold Nat.isValidChar at hencode
  cases h with
  | one hfirst =>
    rw [hencode (by omega), if_pos hfirst, UInt8.ofNat_toNat]
  | @two a b hfirst hsecond =>
    obtain ⟨hb, -⟩ := canFollow_iff.mp hsecond
    rw [payload] at hencode ⊢
    rw [hencode (by omega), if_neg (by omega), if_pos (by omega), ofNat_eq_of_eq a (by omega),
      ofNat_eq_of_eq b (by omega)]
  | @three a b c hfirst hsecond hthird =>
    obtain ⟨hb, hshort, hsurrogate, -⟩ := canFollow_iff.mp hsecond
    have hc := isContinuation_iff.mp hthird
    rw [payload, payload] at hencode ⊢
    rw [hencode (by omega), if_neg (by omega), if_neg (by omega), if_pos (by omega),
      ofNat_eq_of_eq a (by omega), ofNat_eq_of_eq b (by omega),
      ofNat_eq_of_eq c (by omega)]
  | @four a b c d hfirst hsecond hthird hfourth =>
    obtain ⟨hb, -, -, hshort, hpast⟩ := canFollow_iff.mp hsecond
    have hc := isContinuation_iff.mp hthird
    have hd := isContinuation_iff.mp hfourth
    rw [payload, payload, payload] at hencode ⊢
    rw [hencode (by omega), if_neg (by omega), if_neg (by omega), if_neg (by omega),
      ofNat_eq_of_eq a (by omega), ofNat_eq_of_eq b (by omega),
      ofNat_eq_of_eq c (by omega), ofNat_eq_of_eq d (by omega)]

/-- Every character is spelled by its encoding. -/
theorem spells_encode (c : Char) : Spells (String.utf8EncodeChar c) c.toNat := by
  have hvalid : c.toNat < 0xD800 ∨ 0xDFFF < c.toNat ∧ c.toNat < 0x110000 := c.valid
  have byte {n : Nat} (h : n < 256) : (UInt8.ofNat n).toNat = n := UInt8.toNat_ofNat_of_lt' h
  have follows (n : Nat) : isContinuation (UInt8.ofNat (n % 64 + 128)) = true :=
    isContinuation_iff.mpr (by rw [byte (by omega)]; omega)
  rw [String.utf8EncodeChar, ← Char.toNat]
  generalize c.toNat = n at hvalid
  -- The encoder asks how large the number is, and each answer is the bound that the spelling needs.
  split
  · have hspells := Spells.one (a := UInt8.ofNat n) (by rw [byte (by omega)]; assumption)
    rw [byte (by omega)] at hspells
    exact hspells
  split
  · have hspells := Spells.two (a := UInt8.ofNat (n / 64 % 32 + 192)) (b := UInt8.ofNat (n % 64 + 128))
      (by rw [byte (by omega)]; omega) (canFollow_iff.mpr (by rw [byte (by omega), byte (by omega)]; omega))
    rw [payload, byte (by omega), byte (by omega)] at hspells
    convert hspells using 1
    omega
  split
  · have hspells := Spells.three (a := UInt8.ofNat (n / 4096 % 16 + 224))
      (b := UInt8.ofNat (n / 64 % 64 + 128)) (by rw [byte (by omega)]; omega)
      (canFollow_iff.mpr (by rw [byte (by omega), byte (by omega)]; omega)) (follows n)
    rw [payload, payload, byte (by omega), byte (by omega), byte (by omega)] at hspells
    convert hspells using 1
    omega
  · have hspells := Spells.four (a := UInt8.ofNat (n / 262144 % 8 + 240))
      (b := UInt8.ofNat (n / 4096 % 64 + 128)) (by rw [byte (by omega)]; omega)
      (canFollow_iff.mpr (by rw [byte (by omega), byte (by omega)]; omega)) (follows (n / 64)) (follows n)
    rw [payload, payload, payload, byte (by omega), byte (by omega), byte (by omega), byte (by omega)] at hspells
    convert hspells using 1
    omega

/-- **A character is read where it was written**, and nothing else is read as one. -/
theorem next_eq_ok_iff {first : UInt8} {rest : Bytes} {c : Char} {behind : Bytes} :
    next first rest = .ok (c, behind) ↔ first :: rest = String.utf8EncodeChar c ++ behind := by
  constructor
  · intro h
    obtain ⟨bytes, n, hsplit, hspells, rfl⟩ := spells_of_next h
    rw [hsplit, hspells.encode]
  · intro h
    have hspells := spells_encode c
    cases hbytes : String.utf8EncodeChar c with
    | nil =>
      rw [hbytes] at hspells
      cases hspells
    | cons a tail =>
      rw [hbytes] at h hspells
      rw [List.cons_append, List.cons.injEq] at h
      obtain ⟨rfl, rfl⟩ := h
      rw [next_of_spells hspells, Char.ofNat_toNat]

/-! ## Texts -/

theorem utf8EncodeChar_ne_nil (c : Char) : String.utf8EncodeChar c ≠ [] := by
  have hspells := spells_encode c
  intro h
  rw [h] at hspells
  cases hspells

theorem decodeFrom_cons (index : Nat) (first : UInt8) (rest : Bytes) :
    decodeFrom index (first :: rest) = match next first rest with
      | .error length => .error ⟨index, length⟩
      | .ok (c, behind) => (decodeFrom (index + width first) behind).map (c :: ·) := by
  rw [decodeFrom]
  split <;> rename_i h <;> rw [h]

/-- **A text is read where it was written**, and nothing else is read as one. -/
theorem decodeFrom_eq_ok_iff {index : Nat} {bytes : Bytes} {chars : List Char} :
    decodeFrom index bytes = .ok chars ↔ bytes = chars.flatMap String.utf8EncodeChar := by
  induction chars generalizing index bytes with
  | nil =>
    cases bytes with
    | nil => simp [decodeFrom]
    | cons first rest =>
      rw [decodeFrom_cons]
      cases next first rest with
      | error length => simp
      | ok decoded => simp [map_eq_ok_iff]
  | cons c chars ih =>
    rw [List.flatMap_cons]
    cases bytes with
    | nil =>
      have := utf8EncodeChar_ne_nil c
      simp [decodeFrom, this]
    | cons first rest =>
      rw [decodeFrom_cons, ← next_eq_ok_iff]
      cases next first rest with
      | error length => simp
      | ok decoded => simp [map_eq_ok_iff, ih, Prod.ext_iff, and_comm]

theorem decode_eq_ok_iff {bytes : Bytes} {text : String} : decode bytes = .ok text ↔ bytes = encode text := by
  rw [decode, encode]
  constructor
  · intro h
    cases hchars : decodeFrom 0 bytes with
    | error fault =>
      rw [hchars] at h
      cases h
    | ok chars =>
      rw [hchars] at h
      cases h
      rw [String.toList_ofList, decodeFrom_eq_ok_iff.mp hchars]
  · intro h
    rw [decodeFrom_eq_ok_iff.mpr h]
    show Except.ok (String.ofList text.toList) = Except.ok text
    rw [String.ofList_toList]

end BlockShuffle.Utf8
