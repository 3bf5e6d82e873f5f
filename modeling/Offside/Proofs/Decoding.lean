import Offside.Text.Utf8

/-!
# Decoding what was encoded

Bytes that are the encoding of a text are decoded to this text, and no replacement mark appears.  The
decoder goes byte by byte and knows of each first byte how many bytes follow it and what the next one
may be; the encoding of a character meets these bounds because no character is a surrogate or beyond
the last code point.

* first and further bytes by their numbers: `Text.lead?_ofNat`, `Text.decodeFrom_further`;
* one character: `Text.decodeFrom_encoded`;
* **texts**: `Text.decodeLossy_toUTF8`.
-/

namespace Offside.Text

/-! ### Bytes by their numbers -/

theorem toNat_ofNat {n : Nat} (h : n < 256) : (UInt8.ofNat n).toNat = n := by
  rw [UInt8.toNat_ofNat', Nat.mod_eq_of_lt h]

theorem le_ofNat_iff {n : Nat} (h : n < 256) (b : UInt8) : b ≤ UInt8.ofNat n ↔ b.toNat ≤ n := by
  rw [UInt8.le_iff_toNat_le, toNat_ofNat h]

theorem ofNat_le_iff {n : Nat} (h : n < 256) (b : UInt8) : UInt8.ofNat n ≤ b ↔ n ≤ b.toNat := by
  rw [UInt8.le_iff_toNat_le, toNat_ofNat h]

theorem ofNat_lt_iff {n : Nat} (h : n < 256) (b : UInt8) : UInt8.ofNat n < b ↔ n < b.toNat := by
  rw [UInt8.lt_iff_toNat_lt, toNat_ofNat h]

theorem ofNat_eq_iff {n : Nat} (h : n < 256) (b : UInt8) : UInt8.ofNat n = b ↔ n = b.toNat := by
  rw [← UInt8.toNat_inj, toNat_ofNat h]

/-- What a byte says about the character that starts with it, by its number. -/
theorem lead?_ofNat {n : Nat} (h : n < 256) : lead? (UInt8.ofNat n) =
    if 0xC2 ≤ n ∧ n ≤ 0xDF then some ⟨1, 0x80, 0xBF, 32⟩
    else if n = 0xE0 then some ⟨2, 0xA0, 0xBF, 16⟩
    else if n = 0xED then some ⟨2, 0x80, 0x9F, 16⟩
    else if 0xE1 ≤ n ∧ n ≤ 0xEF then some ⟨2, 0x80, 0xBF, 16⟩
    else if n = 0xF0 then some ⟨3, 0x90, 0xBF, 8⟩
    else if n = 0xF4 then some ⟨3, 0x80, 0x8F, 8⟩
    else if 0xF1 ≤ n ∧ n ≤ 0xF3 then some ⟨3, 0x80, 0xBF, 8⟩
    else none := by
  unfold lead?
  simp only [Bool.and_eq_true, decide_eq_true_eq, beq_iff_eq, le_ofNat_iff h, ofNat_le_iff h,
    ofNat_eq_iff h]
  rfl

/-- A byte below 128 is a character of its own. -/
theorem decodeFrom_single {n : Nat} (h : n < 128) (bs : List UInt8) :
    decodeFrom none (UInt8.ofNat n :: bs) = Char.ofNat n :: decodeFrom none bs := by
  have hn : n < 256 := by omega
  have hlt : UInt8.ofNat n < 0x80 := (ofNat_lt_iff hn 0x80).mpr h
  rw [decodeFrom, startChar, if_pos hlt, toNat_ofNat hn]
  rfl

/-- A first byte leaves a character open. -/
theorem decodeFrom_first {n missing modulus : Nat} {low high : UInt8} (hn : 128 ≤ n ∧ n < 256)
    (h : lead? (UInt8.ofNat n) = some ⟨missing, low, high, modulus⟩) (bs : List UInt8) :
    decodeFrom none (UInt8.ofNat n :: bs) =
      decodeFrom (some ⟨n % modulus, missing, low, high⟩) bs := by
  have hlt : ¬ UInt8.ofNat n < 0x80 := by
    rw [ofNat_lt_iff hn.2]
    exact Nat.not_lt.mpr hn.1
  rw [decodeFrom, startChar, if_neg hlt, h, toNat_ofNat hn.2]
  rfl

section

variable {value n k : Nat} {low high : UInt8}

theorem decodeFrom_inRange {p : OpenChar} (hn : n < 256)
    (h : p.low.toNat ≤ n ∧ n ≤ p.high.toNat) (bs : List UInt8) :
    decodeFrom (some p) (UInt8.ofNat n :: bs) =
      if p.missing = 1 then Char.ofNat (p.value * 64 + n % 64) :: decodeFrom none bs
      else decodeFrom (some ⟨p.value * 64 + n % 64, p.missing - 1, 0x80, 0xBF⟩) bs := by
  have hrange : (p.low ≤ UInt8.ofNat n && UInt8.ofNat n ≤ p.high) = true := by
    simp only [Bool.and_eq_true, decide_eq_true_eq, le_ofNat_iff hn, ofNat_le_iff hn]
    exact h
  rw [decodeFrom, if_pos hrange, toNat_ofNat hn]

/-- A further byte in the range asked for adds six bits to the character. -/
theorem decodeFrom_further (hn : n < 256) (h : low.toNat ≤ n ∧ n ≤ high.toNat) (bs : List UInt8) :
    decodeFrom (some ⟨value, k + 2, low, high⟩) (UInt8.ofNat n :: bs) =
      decodeFrom (some ⟨value * 64 + n % 64, k + 1, 0x80, 0xBF⟩) bs := by
  rw [decodeFrom_inRange hn h, if_neg (by simp)]
  rfl

/-- The last byte closes it. -/
theorem decodeFrom_last (hn : n < 256) (h : low.toNat ≤ n ∧ n ≤ high.toNat) (bs : List UInt8) :
    decodeFrom (some ⟨value, 1, low, high⟩) (UInt8.ofNat n :: bs) =
      Char.ofNat (value * 64 + n % 64) :: decodeFrom none bs := by
  rw [decodeFrom_inRange hn h, if_pos rfl]

end

/-- The range of all further bytes but the second. -/
theorem further_inRange (k : Nat) : (0x80 : UInt8).toNat ≤ k % 64 + 0x80 ∧
    k % 64 + 0x80 ≤ (0xBF : UInt8).toNat := by
  refine ⟨Nat.le_add_left .., ?_⟩
  change k % 64 + 0x80 ≤ 0xBF
  omega

/-! ### Characters -/

section

variable {v : Nat}

theorem decodeFrom_two (h : 0x7F < v ∧ v ≤ 0x7FF) (bs : List UInt8) :
    decodeFrom none (UInt8.ofNat (v / 64 % 32 + 0xC0) :: UInt8.ofNat (v % 64 + 0x80) :: bs) =
      Char.ofNat v :: decodeFrom none bs := by
  have hlead : lead? (UInt8.ofNat (v / 64 % 32 + 0xC0)) = some ⟨1, 0x80, 0xBF, 32⟩ := by
    rw [lead?_ofNat (by omega), if_pos (by omega)]
  have hvalue : (v / 64 % 32 + 0xC0) % 32 * 64 + (v % 64 + 0x80) % 64 = v := by omega
  rw [decodeFrom_first (by omega) hlead,
    decodeFrom_last (by omega) (further_inRange v), hvalue]

/-- The range for the second of three bytes leaves out short forms and surrogates. -/
theorem lead?_three (h : 0x7FF < v ∧ v ≤ 0xFFFF) (hs : v < 0xD800 ∨ 0xDFFF < v) :
    ∃ low high, lead? (UInt8.ofNat (v / 4096 % 16 + 0xE0)) = some ⟨2, low, high, 16⟩ ∧
      low.toNat ≤ v / 64 % 64 + 0x80 ∧ v / 64 % 64 + 0x80 ≤ high.toNat := by
  rw [lead?_ofNat (by omega), if_neg (by omega)]
  by_cases hE0 : v / 4096 % 16 + 0xE0 = 0xE0
  · rw [if_pos hE0]
    exact ⟨0xA0, 0xBF, rfl, by simp; omega, by simp; omega⟩
  rw [if_neg hE0]
  by_cases hED : v / 4096 % 16 + 0xE0 = 0xED
  · rw [if_pos hED]
    exact ⟨0x80, 0x9F, rfl, by simp, by simp; omega⟩
  rw [if_neg hED, if_pos (by omega)]
  exact ⟨0x80, 0xBF, rfl, by simp, by simp; omega⟩

theorem decodeFrom_three (h : 0x7FF < v ∧ v ≤ 0xFFFF) (hs : v < 0xD800 ∨ 0xDFFF < v)
    (bs : List UInt8) :
    decodeFrom none (UInt8.ofNat (v / 4096 % 16 + 0xE0) :: UInt8.ofNat (v / 64 % 64 + 0x80) ::
        UInt8.ofNat (v % 64 + 0x80) :: bs) =
      Char.ofNat v :: decodeFrom none bs := by
  obtain ⟨low, high, hlead, hrange⟩ := lead?_three h hs
  have hvalue : ((v / 4096 % 16 + 0xE0) % 16 * 64 + (v / 64 % 64 + 0x80) % 64) * 64 +
      (v % 64 + 0x80) % 64 = v := by omega
  rw [decodeFrom_first (by omega) hlead, decodeFrom_further (by omega) hrange,
    decodeFrom_last (by omega) (further_inRange v), hvalue]

/-- The range for the second of four bytes leaves out short forms and what is no code point. -/
theorem lead?_four (h : 0xFFFF < v ∧ v < 0x110000) :
    ∃ low high, lead? (UInt8.ofNat (v / 262144 % 8 + 0xF0)) = some ⟨3, low, high, 8⟩ ∧
      low.toNat ≤ v / 4096 % 64 + 0x80 ∧ v / 4096 % 64 + 0x80 ≤ high.toNat := by
  rw [lead?_ofNat (by omega), if_neg (by omega), if_neg (by omega), if_neg (by omega),
    if_neg (by omega)]
  by_cases hF0 : v / 262144 % 8 + 0xF0 = 0xF0
  · rw [if_pos hF0]
    exact ⟨0x90, 0xBF, rfl, by simp; omega, by simp; omega⟩
  rw [if_neg hF0]
  by_cases hF4 : v / 262144 % 8 + 0xF0 = 0xF4
  · rw [if_pos hF4]
    exact ⟨0x80, 0x8F, rfl, by simp, by simp; omega⟩
  rw [if_neg hF4, if_pos (by omega)]
  exact ⟨0x80, 0xBF, rfl, by simp, by simp; omega⟩

theorem decodeFrom_four (h : 0xFFFF < v ∧ v < 0x110000) (bs : List UInt8) :
    decodeFrom none (UInt8.ofNat (v / 262144 % 8 + 0xF0) :: UInt8.ofNat (v / 4096 % 64 + 0x80) ::
        UInt8.ofNat (v / 64 % 64 + 0x80) :: UInt8.ofNat (v % 64 + 0x80) :: bs) =
      Char.ofNat v :: decodeFrom none bs := by
  obtain ⟨low, high, hlead, hrange⟩ := lead?_four h
  have hvalue : (((v / 262144 % 8 + 0xF0) % 8 * 64 + (v / 4096 % 64 + 0x80) % 64) * 64 +
      (v / 64 % 64 + 0x80) % 64) * 64 + (v % 64 + 0x80) % 64 = v := by omega
  rw [decodeFrom_first (by omega) hlead, decodeFrom_further (by omega) hrange,
    decodeFrom_further (by omega) (further_inRange (v / 64)),
    decodeFrom_last (by omega) (further_inRange v), hvalue]

end

/-- **The encoding of a character is decoded to it.** -/
theorem decodeFrom_encoded (c : Char) (bs : List UInt8) :
    decodeFrom none (String.utf8EncodeChar c ++ bs) = c :: decodeFrom none bs := by
  have hvalid : c.val.toNat < 0xD800 ∨ 0xDFFF < c.val.toNat ∧ c.val.toNat < 0x110000 := c.valid
  have hchar : Char.ofNat c.val.toNat = c := Char.ofNat_toNat c
  unfold String.utf8EncodeChar
  generalize c.val.toNat = v at hvalid hchar
  rw [← hchar]
  simp only
  by_cases h1 : v ≤ 0x7F
  · rw [if_pos h1]
    exact decodeFrom_single (by omega) bs
  rw [if_neg h1]
  by_cases h2 : v ≤ 0x7FF
  · rw [if_pos h2]
    exact decodeFrom_two ⟨by omega, h2⟩ bs
  rw [if_neg h2]
  by_cases h3 : v ≤ 0xFFFF
  · rw [if_pos h3]
    exact decodeFrom_three ⟨by omega, h3⟩ (by omega) bs
  rw [if_neg h3]
  exact decodeFrom_four ⟨by omega, by omega⟩ bs

/-! ### Texts -/

theorem decodeFrom_flatMap (cs : List Char) :
    decodeFrom none (cs.flatMap String.utf8EncodeChar) = cs := by
  induction cs with
  | nil => rfl
  | cons c cs ih => rw [List.flatMap_cons, decodeFrom_encoded, ih]

theorem toList_toUTF8 (s : String) :
    s.toUTF8.data.toList = s.toList.flatMap String.utf8EncodeChar := by
  rw [String.toUTF8_eq_toByteArray, ← String.utf8Encode_toList, List.utf8Encode,
    List.data_toByteArray]

/-- **The encoding of a text is decoded to it.** -/
theorem decodeLossy_toUTF8 (s : String) : decodeLossy s.toUTF8.data.toList = s := by
  rw [decodeLossy, toList_toUTF8, decodeFrom_flatMap, String.ofList_toList]

end Offside.Text
