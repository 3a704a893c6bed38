import PropertyMetadata.Text.Utf8

/-! Text from its own bytes. Every character is written with one to four bytes, the first of which
tells how many follow; the machine that reads them comes to that character and stands between
characters again. So what is written is read, and nothing in it is broken. -/

namespace PropertyMetadata.Text.Utf8

open String (utf8EncodeChar)

theorem toList_loop (bs : ByteArray) (i : Nat) (r : List UInt8) :
    ByteArray.toList.loop bs i r = r.reverse ++ bs.data.toList.drop i := by
  fun_induction ByteArray.toList.loop bs i r with
  | case1 i r h ih =>
    have hi : i < bs.data.toList.length := by simpa using h
    rw [ih, List.drop_eq_getElem_cons hi]
    simp [ByteArray.get!, h]
  | case2 i r h =>
    rw [List.drop_eq_nil_of_le (by simpa using Nat.le_of_not_lt h)]
    simp

/-- The bytes of a text are those of its characters. -/
theorem encode_ofList (cs : List Char) :
    encode (String.ofList cs) = cs.flatMap utf8EncodeChar := by
  rw [encode, String.toUTF8_eq_toByteArray, String.toByteArray_ofList, List.utf8Encode,
    ByteArray.toList, toList_loop, List.toList_data_toByteArray]
  rfl

/-! ### The first byte -/

variable {c : Char}

theorem toNat_lt (c : Char) : c.toNat < 0x110000 := by
  have := c.valid
  simp only [UInt32.isValidChar, Nat.isValidChar, Char.toNat] at this ⊢
  omega

theorem start_two (h : 0x80 ≤ c.toNat) (h' : c.toNat < 0x800) :
    start (c.toNat / 64 + 0xc0) = .lead (.inside 1 0x80 0xbf (c.toNat / 64)) := by
  unfold start
  repeat rw [if_neg (by omega)]
  rw [if_pos (by omega), Nat.add_sub_cancel]

/-- No character is a surrogate, so the second of three bytes is within its bounds. -/
theorem start_three (h : 0x800 ≤ c.toNat) (h' : c.toNat < 0x10000) : ∃ low high,
    start (c.toNat / 4096 + 0xe0) = .lead (.inside 2 low high (c.toNat / 4096)) ∧
      low ≤ c.toNat / 64 % 64 + 0x80 ∧ c.toNat / 64 % 64 + 0x80 ≤ high := by
  have valid : c.toNat < 0xd800 ∨ 0xdfff < c.toNat := by
    have := c.valid
    simp only [UInt32.isValidChar, Nat.isValidChar, Char.toNat] at this ⊢
    omega
  unfold start
  rw [if_neg (by omega), if_neg (by omega), if_neg (by omega)]
  split
  · exact ⟨0xa0, 0xbf, by rw [show c.toNat / 4096 = 0 by omega], by omega, by omega⟩
  split
  · exact ⟨0x80, 0x9f, by rw [show c.toNat / 4096 = 13 by omega], by omega, by omega⟩
  rw [if_pos (by omega), Nat.add_sub_cancel]
  exact ⟨0x80, 0xbf, rfl, by omega, by omega⟩

theorem start_four (h : 0x10000 ≤ c.toNat) : ∃ low high,
    start (c.toNat / 262144 + 0xf0) = .lead (.inside 3 low high (c.toNat / 262144)) ∧
      low ≤ c.toNat / 4096 % 64 + 0x80 ∧ c.toNat / 4096 % 64 + 0x80 ≤ high := by
  have valid := toNat_lt c
  unfold start
  rw [if_neg (by omega), if_neg (by omega), if_neg (by omega), if_neg (by omega),
    if_neg (by omega), if_neg (by omega)]
  split
  · exact ⟨0x90, 0xbf, by rw [show c.toNat / 262144 = 0 by omega], by omega, by omega⟩
  split
  · rw [Nat.add_sub_cancel]
    exact ⟨0x80, 0xbf, rfl, by omega, by omega⟩
  rw [if_pos (by omega)]
  exact ⟨0x80, 0x8f, by rw [show c.toNat / 262144 = 4 by omega], by omega, by omega⟩

/-! ### Whole characters -/

/-- Bytes complete a character: read from a state on, they come to it, and none of them is
broken. -/
structure Completes (s : State) (bs : List UInt8) (c : Char) : Prop where
  decoded : ∀ rest, decodeFrom s (bs ++ rest) = c :: decodeFrom .between rest
  whole : ∀ position begun rest, ∃ after,
    firstBroken position begun s (bs ++ rest) = firstBroken after [] .between rest

namespace Completes

variable {b : UInt8} {bs : List UInt8} {s : State} {missing low high value : Nat}

theorem single (h : start b.toNat = .whole c) : Completes .between [b] c where
  decoded rest := by simp [decodeFrom, step, begin, h]
  whole position begun rest := ⟨position + 1, by simp [firstBroken, h]⟩

theorem lead (h : start b.toNat = .lead s) (later : Completes s bs c) :
    Completes .between (b :: bs) c where
  decoded rest := by simp [decodeFrom, step, begin, h, later.decoded]
  whole position begun rest := by
    obtain ⟨after, h'⟩ := later.whole position [b] rest
    exact ⟨after, by simp [firstBroken, h, h']⟩

theorem more (h : low ≤ b.toNat ∧ b.toNat ≤ high)
    (later : Completes (.inside (missing + 1) 0x80 0xbf (value * 64 + (b.toNat - 0x80))) bs c) :
    Completes (.inside (missing + 2) low high value) (b :: bs) c where
  decoded rest := by simp [decodeFrom, step, h, later.decoded]
  whole position begun rest := by
    obtain ⟨after, h'⟩ := later.whole position (begun ++ [b]) rest
    exact ⟨after, by simp [firstBroken, h, h']⟩

theorem last (h : low ≤ b.toNat ∧ b.toNat ≤ high)
    (hc : value * 64 + (b.toNat - 0x80) = c.toNat) :
    Completes (.inside 1 low high value) [b] c where
  decoded rest := by simp [decodeFrom, step, h, hc]
  whole position begun rest := ⟨position + begun.length + 1, by simp [firstBroken, h]⟩

end Completes

theorem toNat_ofNat {n : Nat} (h : n < 256) : (UInt8.ofNat n).toNat = n := by
  rw [UInt8.toNat_ofNat', Nat.mod_eq_of_lt h]

theorem completes_utf8EncodeChar (c : Char) : Completes .between (utf8EncodeChar c) c := by
  have valid := toNat_lt c
  have same : c.val.toNat = c.toNat := rfl
  simp only [utf8EncodeChar, same]
  split
  next one =>
    refine .single ?_
    rw [toNat_ofNat (by omega), start, if_pos (by omega), Char.ofNat_toNat]
  split
  next more two =>
    have first : c.toNat / 64 % 32 = c.toNat / 64 := by omega
    refine .lead (s := .inside 1 0x80 0xbf (c.toNat / 64)) ?_ (.last ?_ ?_)
    · rw [first, toNat_ofNat (by omega)]
      exact start_two (by omega) (by omega)
    all_goals
      rw [toNat_ofNat (by omega)]
      omega
  split
  next more three =>
    have first : c.toNat / 4096 % 16 = c.toNat / 4096 := by omega
    obtain ⟨low, high, lead, hl, hh⟩ := start_three (c := c) (by omega) (by omega)
    refine .lead (s := .inside 2 low high (c.toNat / 4096)) ?_ (.more ?_ (.last ?_ ?_))
    · rw [first, toNat_ofNat (by omega), lead]
    all_goals
      repeat rw [toNat_ofNat (by omega)]
      omega
  next more =>
    have first : c.toNat / 262144 % 8 = c.toNat / 262144 := by omega
    obtain ⟨low, high, lead, hl, hh⟩ := start_four (c := c) (by omega)
    refine .lead (s := .inside 3 low high (c.toNat / 262144)) ?_
      (.more ?_ (.more ?_ (.last ?_ ?_)))
    · rw [first, toNat_ofNat (by omega), lead]
    all_goals
      repeat rw [toNat_ofNat (by omega)]
      omega

/-! ### Whole texts -/

/-- The bytes of a text are read as that text. -/
theorem decode_encode (s : String) : decode (encode s) = s := by
  obtain ⟨cs, rfl⟩ : ∃ cs, s = String.ofList cs := ⟨s.toList, String.ofList_toList.symm⟩
  rw [encode_ofList, decode]
  congr 1
  induction cs with
  | nil => rfl
  | cons c cs ih => rw [List.flatMap_cons, (completes_utf8EncodeChar c).decoded, ih]

theorem firstBroken_encode (s : String) : firstBroken 0 [] .between (encode s) = none := by
  obtain ⟨cs, rfl⟩ : ∃ cs, s = String.ofList cs := ⟨s.toList, String.ofList_toList.symm⟩
  rw [encode_ofList]
  generalize 0 = position
  induction cs generalizing position with
  | nil => rfl
  | cons c cs ih =>
    obtain ⟨after, h⟩ := (completes_utf8EncodeChar c).whole position [] (cs.flatMap utf8EncodeChar)
    rw [List.flatMap_cons, h, ih]

theorem decode?_encode (s : String) : decode? (encode s) = .ok s := by
  rw [decode?, firstBroken_encode, decode_encode]

end PropertyMetadata.Text.Utf8
