/-
# Encoded texts

Every text can stand in a file.  A character is encoded as one to four bytes, and decoding them gives the
character back and goes on with what follows, so decoding takes back what encoding has made of a text.
Only the line ends may change on the way: a text without carriage returns is read from a file as it was
written.

* `Text.decodeFrom_lead`, `Text.decodeFrom_continue`: one byte that begins or goes on with a sequence;
* `Text.ofByte?_three`, `Text.ofByte?_four`: the bounds of the byte after the first let every character
  through;
* `Text.decodeFrom_encoded`: one character, wherever it stands.

The main statement is `Text.textOfBytes_encoded`.
-/
import CurryLisp.Text.Utf8

namespace CurryLisp.Text

/-! ## 1. One byte -/

section Bytes

variable {offset : Nat} {done : List Char} {rest : List UInt8}

theorem toNat_byte {n : Nat} (h : n < 256) : (UInt8.ofNat n).toNat = n :=
  UInt8.toNat_ofNat_of_lt' h

/-- A byte below 128 is a character. -/
theorem decodeFrom_single {n : Nat} (h : n < 128) :
    decodeFrom offset none done (UInt8.ofNat n :: rest) =
      decodeFrom (offset + 1) none (Char.ofNat n :: done) rest := by
  have hbyte : (UInt8.ofNat n).toNat = n := toNat_byte (by omega)
  rw [decodeFrom, hbyte, if_pos h]

/-- A larger byte may begin a sequence. -/
theorem decodeFrom_lead {b : UInt8} {l : Lead} (hb : 128 ≤ b.toNat) (hl : Lead.ofByte? b = some l) :
    decodeFrom offset none done (b :: rest) =
      decodeFrom (offset + 1) (some ⟨b, offset, 1, l.more, l.bits, l.low, l.high⟩) done rest := by
  rw [decodeFrom, if_neg (Nat.not_lt.mpr hb), hl]

/-- A byte inside the bounds goes on with the sequence, and may end it. -/
theorem decodeFrom_continue {u : Unfinished} {n : Nat} (hn : n < 64) (hlow : u.low ≤ n + 128)
    (hhigh : n + 128 ≤ u.high) :
    decodeFrom offset (some u) done (UInt8.ofNat (n + 128) :: rest) =
      if u.more ≤ 1 then decodeFrom (offset + 1) none (Char.ofNat (u.bits * 64 + n) :: done) rest
      else decodeFrom (offset + 1)
        (some { u with
          seen := u.seen + 1, more := u.more - 1, bits := u.bits * 64 + n, low := 0x80, high := 0xBF })
        done rest := by
  have hbyte : (UInt8.ofNat (n + 128)).toNat = n + 128 := toNat_byte (by omega)
  have hbounds : (decide (u.low ≤ n + 128) && decide (n + 128 ≤ u.high)) = true := by
    simp [hlow, hhigh]
  rw [decodeFrom]
  dsimp only
  rw [hbyte, if_pos hbounds, Nat.add_sub_cancel]

end Bytes

/-! ## 2. The first byte of a sequence -/

/-- The first of two bytes. -/
theorem ofByte?_two {k : Nat} (hk : 2 ≤ k) (hk' : k < 32) :
    Lead.ofByte? (UInt8.ofNat (k + 192)) = some ⟨1, k, 0x80, 0xBF⟩ := by
  rw [Lead.ofByte?, toNat_byte (by omega), if_neg (by omega), if_pos (by omega), Nat.add_sub_cancel]

/-- The first of three bytes, and a second one that is neither too small nor a surrogate's. -/
theorem ofByte?_three {k x : Nat} (hk : k < 16) (hx : x < 64) (hsmall : k = 0 → 32 ≤ x)
    (hsurrogate : k = 13 → x < 32) :
    ∃ low high, Lead.ofByte? (UInt8.ofNat (k + 224)) = some ⟨2, k, low, high⟩ ∧
      low ≤ x + 128 ∧ x + 128 ≤ high := by
  rw [Lead.ofByte?, toNat_byte (by omega), if_neg (by omega), if_neg (by omega)]
  by_cases hzero : k = 0
  · subst hzero
    exact ⟨_, _, if_pos rfl, by omega, by omega⟩
  · rw [if_neg (by omega)]
    by_cases hthirteen : k = 13
    · subst hthirteen
      exact ⟨_, _, if_pos rfl, by omega, by omega⟩
    · rw [if_neg (by omega), if_pos (by omega), Nat.add_sub_cancel]
      exact ⟨_, _, rfl, by omega, by omega⟩

/-- The first of four bytes, and a second one that is neither too small nor past the last code
point. -/
theorem ofByte?_four {k x : Nat} (hk : k ≤ 4) (hx : x < 64) (hsmall : k = 0 → 16 ≤ x)
    (hlarge : k = 4 → x < 16) :
    ∃ low high, Lead.ofByte? (UInt8.ofNat (k + 240)) = some ⟨3, k, low, high⟩ ∧
      low ≤ x + 128 ∧ x + 128 ≤ high := by
  rw [Lead.ofByte?, toNat_byte (by omega), if_neg (by omega), if_neg (by omega), if_neg (by omega),
    if_neg (by omega), if_neg (by omega)]
  by_cases hzero : k = 0
  · subst hzero
    exact ⟨_, _, if_pos rfl, by omega, by omega⟩
  · rw [if_neg (by omega)]
    by_cases hfour : k = 4
    · subst hfour
      exact ⟨_, _, rfl, by omega, by omega⟩
    · rw [if_pos (by omega), Nat.add_sub_cancel]
      exact ⟨_, _, rfl, by omega, by omega⟩

/-! ## 3. Characters -/

/-- The code points of characters are not surrogates, and end at the last one. -/
theorem toNat_valid (c : Char) : c.toNat < 0xD800 ∨ 0xDFFF < c.toNat ∧ c.toNat < 0x110000 := c.valid

section Characters

variable {offset v : Nat} {done : List Char} {rest : List UInt8}

/-- Two bytes are decoded together. -/
theorem decodeFrom_two (h : 0x80 ≤ v) (h' : v < 0x800) :
    decodeFrom offset none done
        (UInt8.ofNat (v / 64 + 192) :: UInt8.ofNat (v % 64 + 128) :: rest) =
      decodeFrom (offset + 2) none (Char.ofNat v :: done) rest := by
  have hfirst := ofByte?_two (k := v / 64) (by omega) (by omega)
  have hbits : v / 64 * 64 + v % 64 = v := by omega
  rw [decodeFrom_lead (by rw [toNat_byte (by omega)]; omega) hfirst,
    decodeFrom_continue (by omega) (by dsimp only; omega) (by dsimp only; omega)]
  dsimp only
  rw [if_pos (Nat.le_refl 1), hbits]

/-- Three bytes are decoded together. -/
theorem decodeFrom_three (h : 0x800 ≤ v) (h' : v < 0x10000) (hvalid : v < 0xD800 ∨ 0xDFFF < v) :
    decodeFrom offset none done (UInt8.ofNat (v / 4096 + 224) ::
        UInt8.ofNat (v / 64 % 64 + 128) :: UInt8.ofNat (v % 64 + 128) :: rest) =
      decodeFrom (offset + 3) none (Char.ofNat v :: done) rest := by
  obtain ⟨low, high, hfirst, hlow, hhigh⟩ :=
    ofByte?_three (k := v / 4096) (x := v / 64 % 64) (by omega) (by omega) (by omega) (by omega)
  have hbits : (v / 4096 * 64 + v / 64 % 64) * 64 + v % 64 = v := by omega
  rw [decodeFrom_lead (by rw [toNat_byte (by omega)]; omega) hfirst,
    decodeFrom_continue (by omega) hlow hhigh]
  dsimp only
  rw [if_neg (by decide), decodeFrom_continue (by omega) (by dsimp only; omega) (by dsimp only; omega)]
  dsimp only
  rw [if_pos (by decide), hbits]

/-- Four bytes are decoded together. -/
theorem decodeFrom_four (h : 0x10000 ≤ v) (h' : v < 0x110000) :
    decodeFrom offset none done (UInt8.ofNat (v / 262144 + 240) ::
        UInt8.ofNat (v / 4096 % 64 + 128) :: UInt8.ofNat (v / 64 % 64 + 128) ::
        UInt8.ofNat (v % 64 + 128) :: rest) =
      decodeFrom (offset + 4) none (Char.ofNat v :: done) rest := by
  obtain ⟨low, high, hfirst, hlow, hhigh⟩ :=
    ofByte?_four (k := v / 262144) (x := v / 4096 % 64) (by omega) (by omega) (by omega) (by omega)
  have hbits : ((v / 262144 * 64 + v / 4096 % 64) * 64 + v / 64 % 64) * 64 + v % 64 = v := by omega
  rw [decodeFrom_lead (by rw [toNat_byte (by omega)]; omega) hfirst,
    decodeFrom_continue (by omega) hlow hhigh]
  dsimp only
  rw [if_neg (by decide), decodeFrom_continue (by omega) (by dsimp only; omega) (by dsimp only; omega)]
  dsimp only
  rw [if_neg (by decide), decodeFrom_continue (by omega) (by dsimp only; omega) (by dsimp only; omega)]
  dsimp only
  rw [if_pos (by decide), hbits]

/-- **The bytes of a character** are decoded to the character, whatever was read before and whatever
follows. -/
theorem decodeFrom_encoded (offset : Nat) (done : List Char) (c : Char) (rest : List UInt8) :
    decodeFrom offset none done (String.utf8EncodeChar c ++ rest) =
      decodeFrom (offset + (String.utf8EncodeChar c).length) none (c :: done) rest := by
  have hvalid := toNat_valid c
  have hback : Char.ofNat c.toNat = c := Char.ofNat_toNat c
  have hvalue : c.val.toNat = c.toNat := rfl
  rw [String.utf8EncodeChar.eq_1, hvalue]
  -- From here on the character is known by its code point, and the cases are those of its size.
  generalize c.toNat = v at hvalid hback
  subst hback
  split
  · next hone => exact decodeFrom_single (by omega)
  · split
    · next hone htwo =>
      rw [Nat.mod_eq_of_lt (by omega : v / 64 < 32)]
      exact decodeFrom_two (by omega) (by omega)
    · split
      · next htwo hthree =>
        rw [Nat.mod_eq_of_lt (by omega : v / 4096 < 16)]
        exact decodeFrom_three (by omega) (by omega) (by omega)
      · next hthree =>
        rw [Nat.mod_eq_of_lt (by omega : v / 262144 < 8)]
        exact decodeFrom_four (by omega) (by omega)

end Characters

/-! ## 4. Texts -/

/-- The bytes that a text is encoded as. -/
def encoded (s : String) : List UInt8 := s.toUTF8.data.toList

/-- They are those of its characters. -/
theorem encoded_eq_flatMap (s : String) : encoded s = s.toList.flatMap String.utf8EncodeChar := by
  rw [encoded, String.toUTF8_eq_toByteArray, ← String.utf8Encode_toList, List.utf8Encode,
    List.toList_data_toByteArray]

theorem decodeFrom_encodedChars (offset : Nat) (done cs : List Char) :
    decodeFrom offset none done (cs.flatMap String.utf8EncodeChar) = .ok (done.reverse ++ cs) := by
  induction cs generalizing offset done with
  | nil => rw [List.flatMap_nil, decodeFrom, List.append_nil]
  | cons c rest ih =>
    rw [List.flatMap_cons, decodeFrom_encoded, ih, List.reverse_cons, List.append_assoc]
    rfl

/-- **Decoding takes back what encoding has made.** -/
theorem decode_encoded (s : String) : decode (encoded s) = .ok s.toList := by
  rw [encoded_eq_flatMap]
  exact decodeFrom_encodedChars 0 [] s.toList

/-- **A text without carriage returns is read as it was written.** -/
theorem textOfBytes_encoded {s : String} (h : '\r' ∉ s.toList) :
    textOfBytes (encoded s) = .ok s := by
  rw [textOfBytes, decode_encoded]
  change Except.ok (String.ofList (unifyNewlines s.toList)) = _
  rw [unifyNewlines_eq_self h, String.ofList_toList]

end CurryLisp.Text
