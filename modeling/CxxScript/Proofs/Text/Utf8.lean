import CxxScript.Text.Utf8

/-!
# Reading back what was encoded

The bytes of a character begin no other encoding and leave none unfinished, whatever stands behind
them: `next_encodeChar`, by the number of its bytes. And a character that is read has the bytes that
it was read from, `encodeChar_of_next`. So bytes are read as a text just when they are the bytes of
that text, `decode?_eq_some_iff`.
-/

set_option autoImplicit false

namespace CxxScript.Text.Utf8

/-! ## Bytes by their numbers -/

/-- A number below 256 is that of its byte. -/
theorem toNat_ofNat {n : Nat} (h : n < 0x100) : (UInt8.ofNat n).toNat = n := by
  rw [UInt8.toNat_ofNat']
  omega

/-- A byte is determined by its number. -/
theorem ofNat_eq {b : UInt8} {n : Nat} (h : n = b.toNat) : UInt8.ofNat n = b := by
  rw [h, UInt8.ofNat_toNat]

section Starts

variable {b c d e : UInt8}

/-- A byte whose number is large is not one of ASCII. -/
theorem not_lt_of_le (h : 0x80 ≤ b.toNat) : ¬ b < 0x80 := by
  rw [UInt8.lt_iff_toNat_lt]
  exact Nat.not_lt.mpr h

/-- The bytes behind the first one of a character lie between two numbers. -/
theorem isTail_iff : isTail b = true ↔ 0x80 ≤ b.toNat ∧ b.toNat ≤ 0xBF := by
  simp [isTail, UInt8.le_iff_toNat_le]

/-- The first bytes of characters with two bytes lie between two numbers. -/
theorem startsTwo_iff : (0xC2 ≤ b && b ≤ 0xDF) = true ↔ 0xC2 ≤ b.toNat ∧ b.toNat ≤ 0xDF := by
  simp [UInt8.le_iff_toNat_le]

/-- The bytes that begin an encoding of three: it is neither overlong nor a surrogate. -/
theorem startsThree_iff : startsThree b c = true ↔ 0xE0 ≤ b.toNat ∧ b.toNat ≤ 0xEF ∧
    isTail c = true ∧ (b.toNat = 0xE0 → 0xA0 ≤ c.toNat) ∧ (b.toNat = 0xED → c.toNat ≤ 0x9F) := by
  simp only [startsThree, isTail, beq_iff_eq, ← UInt8.toNat_inj, UInt8.le_iff_toNat_le,
    UInt8.reduceToNat, Bool.and_eq_true, decide_eq_true_eq]
  split
  · simp only [Bool.and_eq_true, decide_eq_true_eq]
    omega
  · split
    · simp only [Bool.and_eq_true, decide_eq_true_eq]
      omega
    · simp only [Bool.and_eq_true, decide_eq_true_eq]
      omega

/-- The bytes that begin an encoding of four: it is neither overlong nor beyond the last code
point. -/
theorem startsFour_iff : startsFour b c = true ↔ 0xF0 ≤ b.toNat ∧ b.toNat ≤ 0xF4 ∧
    isTail c = true ∧ (b.toNat = 0xF0 → 0x90 ≤ c.toNat) ∧ (b.toNat = 0xF4 → c.toNat ≤ 0x8F) := by
  simp only [startsFour, isTail, beq_iff_eq, ← UInt8.toNat_inj, UInt8.le_iff_toNat_le,
    UInt8.reduceToNat, Bool.and_eq_true, decide_eq_true_eq]
  split
  · simp only [Bool.and_eq_true, decide_eq_true_eq]
    omega
  · split
    · simp only [Bool.and_eq_true, decide_eq_true_eq]
      omega
    · simp only [Bool.and_eq_true, decide_eq_true_eq]
      omega

/-! ## What is read from bytes -/

/-- A byte of ASCII is a character. -/
theorem next_one (hb : b.toNat < 0x80) (rest : Bytes) :
    next b rest = (some (Char.ofNat b.toNat), 0) := by
  have hlt : b < 0x80 := UInt8.lt_iff_toNat_lt.mpr hb
  unfold next
  rw [if_pos hlt]

/-- A first byte of two and a tail are a character. -/
theorem next_two (hlow : 0xC2 ≤ b.toNat) (hhigh : b.toNat ≤ 0xDF) (hc : isTail c = true)
    (rest : Bytes) :
    next b (c :: rest) = (some (Char.ofNat (b.toNat % 0x20 * 0x40 + tailBits c)), 1) := by
  have hone : ¬ b < 0x80 := not_lt_of_le (by omega)
  have htwo : (0xC2 ≤ b && b ≤ 0xDF) = true := startsTwo_iff.mpr ⟨hlow, hhigh⟩
  simp only [next, if_neg hone, htwo, if_true, hc]

/-- A first byte of three, with a second one that goes with it, and a tail are a character. -/
theorem next_three (hstart : startsThree b c = true) (hd : isTail d = true) (rest : Bytes) :
    next b (c :: d :: rest) =
      (some (Char.ofNat ((b.toNat % 0x10 * 0x40 + tailBits c) * 0x40 + tailBits d)), 2) := by
  obtain ⟨hlow, -⟩ := startsThree_iff.mp hstart
  have hone : ¬ b < 0x80 := not_lt_of_le (by omega)
  have htwo : ¬ (0xC2 ≤ b && b ≤ 0xDF) = true := by
    rw [startsTwo_iff]
    omega
  simp only [next, if_neg hone, if_neg htwo, hstart, if_true, hd]

/-- A first byte of four, with a second one that goes with it, and two tails are a character. -/
theorem next_four (hstart : startsFour b c = true) (hd : isTail d = true) (he : isTail e = true)
    (rest : Bytes) : next b (c :: d :: e :: rest) =
      (some (Char.ofNat (((b.toNat % 0x08 * 0x40 + tailBits c) * 0x40 + tailBits d) * 0x40 +
        tailBits e)), 3) := by
  obtain ⟨hlow, -⟩ := startsFour_iff.mp hstart
  have hone : ¬ b < 0x80 := not_lt_of_le (by omega)
  have htwo : ¬ (0xC2 ≤ b && b ≤ 0xDF) = true := by
    rw [startsTwo_iff]
    omega
  have hthree : ¬ startsThree b c = true := by
    rw [startsThree_iff]
    omega
  simp only [next, if_neg hone, if_neg htwo, if_neg hthree, hstart, if_true, hd, he]

end Starts

/-! ## Characters from their bytes -/

section Characters

variable {v : Nat}

/-- The number of a character outside the surrogates is the one it was made of. -/
theorem toNat_char (h : v < 0xD800 ∨ 0xDFFF < v ∧ v < 0x110000) :
    (Char.ofNat v).val.toNat = v := by
  have hvalid : v.isValidChar := h
  rw [Char.ofNat, dif_pos hvalid]
  rfl

variable {b c d e : UInt8}

/-- The character of a byte of ASCII is encoded as that byte. -/
theorem encodeChar_one (hb : b.toNat < 0x80) :
    String.utf8EncodeChar (Char.ofNat b.toNat) = [b] := by
  have hval := toNat_char (v := b.toNat) (by omega)
  unfold String.utf8EncodeChar
  rw [hval]
  dsimp only
  rw [if_pos (by omega), ofNat_eq rfl]

/-- The character of two bytes is encoded as these. -/
theorem encodeChar_two (hlow : 0xC2 ≤ b.toNat) (hhigh : b.toNat ≤ 0xDF) (hc : isTail c = true) :
    String.utf8EncodeChar (Char.ofNat (b.toNat % 0x20 * 0x40 + tailBits c)) = [b, c] := by
  obtain ⟨hclow, hchigh⟩ := isTail_iff.mp hc
  have hval := toNat_char (v := b.toNat % 0x20 * 0x40 + tailBits c) (by unfold tailBits; omega)
  unfold String.utf8EncodeChar
  rw [hval]
  unfold tailBits
  dsimp only
  rw [if_neg (by omega), if_pos (by omega), ofNat_eq (b := b) (by omega),
    ofNat_eq (b := c) (by omega)]

/-- The character of three bytes is encoded as these. -/
theorem encodeChar_three (hstart : startsThree b c = true) (hd : isTail d = true) :
    String.utf8EncodeChar (Char.ofNat ((b.toNat % 0x10 * 0x40 + tailBits c) * 0x40 + tailBits d)) =
      [b, c, d] := by
  obtain ⟨hlow, hhigh, hc, hoverlong, hsurrogate⟩ := startsThree_iff.mp hstart
  obtain ⟨hclow, hchigh⟩ := isTail_iff.mp hc
  obtain ⟨hdlow, hdhigh⟩ := isTail_iff.mp hd
  have hval := toNat_char (v := (b.toNat % 0x10 * 0x40 + tailBits c) * 0x40 + tailBits d)
    (by unfold tailBits; omega)
  unfold String.utf8EncodeChar
  rw [hval]
  unfold tailBits
  dsimp only
  rw [if_neg (by omega), if_neg (by omega), if_pos (by omega), ofNat_eq (b := b) (by omega),
    ofNat_eq (b := c) (by omega), ofNat_eq (b := d) (by omega)]

/-- The character of four bytes is encoded as these. -/
theorem encodeChar_four (hstart : startsFour b c = true) (hd : isTail d = true)
    (he : isTail e = true) : String.utf8EncodeChar (Char.ofNat (((b.toNat % 0x08 * 0x40 +
      tailBits c) * 0x40 + tailBits d) * 0x40 + tailBits e)) = [b, c, d, e] := by
  obtain ⟨hlow, hhigh, hc, hoverlong, hlast⟩ := startsFour_iff.mp hstart
  obtain ⟨hclow, hchigh⟩ := isTail_iff.mp hc
  obtain ⟨hdlow, hdhigh⟩ := isTail_iff.mp hd
  obtain ⟨helow, hehigh⟩ := isTail_iff.mp he
  have hval := toNat_char (v := ((b.toNat % 0x08 * 0x40 + tailBits c) * 0x40 + tailBits d) * 0x40 +
    tailBits e) (by unfold tailBits; omega)
  unfold String.utf8EncodeChar
  rw [hval]
  unfold tailBits
  dsimp only
  rw [if_neg (by omega), if_neg (by omega), if_neg (by omega), ofNat_eq (b := b) (by omega),
    ofNat_eq (b := c) (by omega), ofNat_eq (b := d) (by omega), ofNat_eq (b := e) (by omega)]

/-- A character that is read has the bytes that it was read from. -/
theorem encodeChar_of_next {rest : Bytes} {c : Char} {n : Nat} (h : next b rest = (some c, n)) :
    n ≤ rest.length ∧ String.utf8EncodeChar c = b :: rest.take n := by
  unfold next at h
  split at h
  · next hone =>
    cases h
    exact ⟨Nat.zero_le _, encodeChar_one (UInt8.lt_iff_toNat_lt.mp hone)⟩
  · split at h
    · cases h
    · next c₁ rest₁ =>
      split at h
      · next htwo =>
        split at h
        · next hc =>
          cases h
          obtain ⟨hlow, hhigh⟩ := startsTwo_iff.mp htwo
          exact ⟨by simp, encodeChar_two hlow hhigh hc⟩
        · cases h
      · split at h
        · next hthree =>
          split at h
          · cases h
          · next d rest₂ =>
            split at h
            · next hd =>
              cases h
              exact ⟨by simp, encodeChar_three hthree hd⟩
            · cases h
        · split at h
          · next hfour =>
            split at h
            · cases h
            · next d rest₂ =>
              split at h
              · next hd =>
                split at h
                · cases h
                · next e rest₃ =>
                  split at h
                  · next he =>
                    cases h
                    exact ⟨by simp, encodeChar_four hfour hd he⟩
                  · cases h
              · cases h
          · cases h

end Characters

/-! ## Whole texts -/

/-- Six bits behind the mark of a tail are a tail. -/
theorem isTail_ofNat (n : Nat) : isTail (UInt8.ofNat (n % 0x40 + 0x80)) = true := by
  have hlt : n % 0x40 + 0x80 < 0x100 := by omega
  rw [isTail_iff, toNat_ofNat hlt]
  omega

/-- The six bits of a tail are those that it was made of. -/
theorem tailBits_ofNat (n : Nat) : tailBits (UInt8.ofNat (n % 0x40 + 0x80)) = n % 0x40 := by
  have hlt : n % 0x40 + 0x80 < 0x100 := by omega
  rw [tailBits, toNat_ofNat hlt]
  omega

/-- The bytes of a character are read as that character, whatever stands behind them. -/
theorem next_encodeChar (c : Char) (rest : Bytes) : ∃ b tail,
    String.utf8EncodeChar c = b :: tail ∧ next b (tail ++ rest) = (some c, tail.length) := by
  have hc : Char.ofNat c.val.toNat = c := Char.ofNat_toNat c
  have hvalid : c.val.toNat < 0xD800 ∨ 0xDFFF < c.val.toNat ∧ c.val.toNat < 0x110000 := c.valid
  unfold String.utf8EncodeChar
  dsimp only
  generalize c.val.toNat = v at hc hvalid
  split
  · have hb : v < 0x100 := by omega
    refine ⟨_, _, rfl, ?_⟩
    rw [next_one, toNat_ofNat hb, hc]
    · rfl
    · rw [toNat_ofNat hb]
      omega
  · split
    · have hb : v / 0x40 % 0x20 + 0xC0 < 0x100 := by omega
      have hv : (v / 0x40 % 0x20 + 0xC0) % 0x20 * 0x40 + v % 0x40 = v := by omega
      refine ⟨_, _, rfl, ?_⟩
      rw [List.cons_append, next_two, toNat_ofNat hb, tailBits_ofNat, hv, hc]
      · rfl
      · rw [toNat_ofNat hb]
        omega
      · rw [toNat_ofNat hb]
        omega
      · exact isTail_ofNat v
    · split
      · have hb : v / 0x1000 % 0x10 + 0xE0 < 0x100 := by omega
        have hv : ((v / 0x1000 % 0x10 + 0xE0) % 0x10 * 0x40 + v / 0x40 % 0x40) * 0x40 + v % 0x40 =
            v := by omega
        refine ⟨_, _, rfl, ?_⟩
        rw [List.cons_append, List.cons_append, next_three, toNat_ofNat hb, tailBits_ofNat,
          tailBits_ofNat, hv, hc]
        · rfl
        · have hlow : v / 0x40 % 0x40 + 0x80 < 0x100 := by omega
          rw [startsThree_iff, toNat_ofNat hb, toNat_ofNat hlow]
          exact ⟨by omega, by omega, isTail_ofNat (v / 0x40), by omega, by omega⟩
        · exact isTail_ofNat v
      · have hb : v / 0x40000 % 0x08 + 0xF0 < 0x100 := by omega
        have hv : (((v / 0x40000 % 0x08 + 0xF0) % 0x08 * 0x40 + v / 0x1000 % 0x40) * 0x40 +
            v / 0x40 % 0x40) * 0x40 + v % 0x40 = v := by omega
        refine ⟨_, _, rfl, ?_⟩
        rw [List.cons_append, List.cons_append, List.cons_append, next_four, toNat_ofNat hb,
          tailBits_ofNat, tailBits_ofNat, tailBits_ofNat, hv, hc]
        · rfl
        · have hlow : v / 0x1000 % 0x40 + 0x80 < 0x100 := by omega
          rw [startsFour_iff, toNat_ofNat hb, toNat_ofNat hlow]
          exact ⟨by omega, by omega, isTail_ofNat (v / 0x1000), by omega, by omega⟩
        · exact isTail_ofNat (v / 0x40)
        · exact isTail_ofNat v

/-- Behind some bytes that are passed the characters of the rest are read. -/
theorem charsAfter_append (passed rest : Bytes) :
    charsAfter passed.length (passed ++ rest) = chars rest := by
  induction passed with
  | nil => rfl
  | cons b passed ih => exact ih

/-- The encoded characters of a text are read as these. -/
theorem chars_flatMap (text : List Char) :
    chars (text.flatMap String.utf8EncodeChar) = text.map some := by
  induction text with
  | nil => rfl
  | cons c text ih =>
    obtain ⟨b, tail, hbytes, hnext⟩ := next_encodeChar c (text.flatMap String.utf8EncodeChar)
    rw [List.flatMap_cons, hbytes, List.cons_append, chars, charsAfter, hnext, charsAfter_append,
      ih, List.map_cons]

/-- Bytes that are read as the characters of a text are these encoded. -/
theorem eq_flatMap_of_chars {text : List Char} {bytes : Bytes} (h : chars bytes = text.map some) :
    bytes = text.flatMap String.utf8EncodeChar := by
  induction text generalizing bytes with
  | nil =>
    cases bytes with
    | nil => rfl
    | cons b rest => cases h
  | cons c text ih =>
    cases bytes with
    | nil => cases h
    | cons b rest =>
      rw [chars, charsAfter, List.map_cons, List.cons.injEq] at h
      obtain ⟨hc, hrest⟩ := h
      obtain ⟨hn, hbytes⟩ := encodeChar_of_next (Prod.ext hc rfl)
      have hlength : (rest.take (next b rest).2).length = (next b rest).2 :=
        List.length_take_of_le hn
      have hsplit := List.take_append_drop (next b rest).2 rest
      have hafter : chars (rest.drop (next b rest).2) = text.map some := by
        rw [← hrest, ← charsAfter_append (rest.take (next b rest).2), hlength, hsplit]
      rw [List.flatMap_cons, hbytes, ← ih hafter, List.cons_append, hsplit]

/-- Bytes are read as a text just when they are its bytes. -/
theorem decode?_eq_some_iff {bytes : Bytes} {text : String} :
    decode? bytes = some text ↔ bytes = encode text := by
  constructor
  · intro h
    unfold decode? at h
    dsimp only at h
    split at h
    · next hall =>
      cases h
      have hsome : ∀ c ∈ chars bytes, some (c.getD replacement) = id c := by
        intro c hc
        cases c with
        | none => cases List.all_eq_true.mp hall none hc
        | some c => rfl
      have hchars : chars bytes = ((chars bytes).map (·.getD replacement)).map some := by
        rw [List.map_map]
        exact ((List.map_congr_left hsome).trans (List.map_id _)).symm
      rw [encode, String.toList_ofList]
      exact eq_flatMap_of_chars hchars
    · cases h
  · rintro rfl
    have hchars : chars (encode text) = text.toList.map some := chars_flatMap text.toList
    simp [decode?, hchars, Function.comp_def]

end CxxScript.Text.Utf8
