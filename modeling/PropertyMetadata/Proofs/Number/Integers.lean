import PropertyMetadata.Number.Reading

/-! Integers from their own decimal notation. What is written for an integer is a sign, where there
is one, and digits; as long as these are not more than may be read, they are read as the integer. -/

namespace PropertyMetadata.Number

open Text

variable {cs : List Char}

def digitsOf (i : Int) : List Char := Nat.toDigits 10 i.natAbs

/-- An integer has no more digits than may be read. -/
def Short (i : Int) : Prop := (digitsOf i).length ≤ digitLimit

instance (i : Int) : Decidable (Short i) := inferInstanceAs (Decidable (_ ≤ _))

theorem isDigit_of_mem_digitsOf {i : Int} : ∀ c ∈ digitsOf i, c.isDigit = true :=
  fun _ hc => Nat.isDigit_of_mem_toDigits (by decide) (by decide) hc

theorem exists_digitsOf (i : Int) : ∃ d ds, digitsOf i = d :: ds ∧ d.isDigit = true := by
  obtain ⟨d, ds, digits⟩ := List.exists_cons_of_ne_nil
    (show digitsOf i ≠ [] from Nat.toDigits_ne_nil)
  exact ⟨d, ds, digits, isDigit_of_mem_digitsOf d (digits ▸ List.mem_cons_self)⟩

theorem toList_toString (i : Int) :
    (toString i).toList = (if i < 0 then ['-'] else []) ++ digitsOf i := by
  rw [show toString i = i.repr from rfl, Int.repr_eq_if]
  by_cases h : 0 ≤ i
  · have same : i.toNat = i.natAbs := by omega
    rw [if_pos h, if_neg (by omega), same, Nat.repr_eq_ofList_toDigits, String.toList_ofList]
    rfl
  · have same : (-i).toNat = i.natAbs := by omega
    rw [if_neg h, if_pos (by omega), same, Nat.repr_eq_ofList_toDigits, String.toList_append]
    exact congrArg ('-' :: ·) String.toList_ofList

theorem natAbs_eq_of_digitsOf {i j : Int} (h : digitsOf i = digitsOf j) : i.natAbs = j.natAbs := by
  rw [← Nat.ofDigitChars_ten_toDigits (n := i.natAbs), ← digitsOf, h, digitsOf,
    Nat.ofDigitChars_ten_toDigits]

theorem digitsOf_ne_sign (i : Int) (cs : List Char) : digitsOf i ≠ '-' :: cs := fun same =>
  absurd (isDigit_of_mem_digitsOf '-' (same ▸ List.mem_cons_self)) (by decide)

theorem eq_of_toString {i j : Int} (h : toString i = toString j) : i = j := by
  have same := congrArg String.toList h
  rw [toList_toString, toList_toString] at same
  by_cases hi : i < 0 <;> by_cases hj : j < 0 <;> simp only [hi, hj, if_true, if_false] at same
  · have := natAbs_eq_of_digitsOf (List.cons.inj same).2
    omega
  · exact absurd same.symm (digitsOf_ne_sign j _)
  · exact absurd same (digitsOf_ne_sign i _)
  · have := natAbs_eq_of_digitsOf same
    omega

/-! ### Characters -/

theorem toNat_of_isDigit {c : Char} (h : c.isDigit = true) : 48 ≤ c.toNat ∧ c.toNat ≤ 57 := by
  simp only [Char.isDigit, Bool.and_eq_true, decide_eq_true_eq, UInt32.le_iff_toNat_le] at h
  exact h

theorem digitValue?_of_isDigit {c : Char} (h : c.isDigit = true) :
    digitValue? c = some (c.toNat - 48) := by
  obtain ⟨others, first⟩ : ∃ others, zeros = 48 :: others := ⟨_, rfl⟩
  rw [digitValue?, first, List.find?_cons_of_pos (by simpa using toNat_of_isDigit h)]
  rfl

theorem digits?_of_isDigit (h : ∀ c ∈ cs, c.isDigit = true) :
    digits? cs = some (cs.map fun c => c.toNat - 48) := by
  fun_induction digits? cs with
  | case1 => rfl
  | case2 c => simp [digitValue?_of_isDigit (h c List.mem_cons_self)]
  | case3 c d cs ih => exact absurd (h '_' (by simp)) (by decide)
  | case4 c cs _ _ ih =>
    obtain ⟨hc, hcs⟩ := List.forall_mem_cons.1 h
    simp [digitValue?_of_isDigit hc, ih hcs]

theorem ofDigits_map (cs : List Char) :
    ofDigits (cs.map fun c => c.toNat - 48) = Nat.ofDigitChars 10 cs 0 := by
  rw [ofDigits, List.foldl_map]
  rfl

theorem trimBoth_isPadding (h : ∀ c ∈ cs, c.isDigit = true ∨ c = '-') :
    trimBoth isPadding cs = cs := by
  have kept : ∀ c ∈ cs, isPadding c = false := by
    intro c hc
    rcases h c hc with digit | rfl
    · have digits : ∀ n < 58, 48 ≤ n → isPadding (Char.ofNat n) = false := by decide
      obtain ⟨low, high⟩ := toNat_of_isDigit digit
      simpa using digits c.toNat (by omega) low
    · decide
  exact trimBoth_of_all kept

/-! ### Integers -/

/-- An integer that is not too long is read back from its notation; a longer one is refused. -/
theorem integer?_toString (i : Int) :
    integer? (toString i) = if Short i then some i else none := by
  have chars : ∀ c ∈ (toString i).toList, c.isDigit = true ∨ c = '-' := by
    intro c hc
    rw [toList_toString, List.mem_append] at hc
    rcases hc with hc | hc
    · split at hc
      · exact .inr (List.mem_singleton.1 hc)
      · cases hc
    · exact .inl (isDigit_of_mem_digitsOf c hc)
  have sign : signed ((if i < 0 then ['-'] else []) ++ digitsOf i) =
      (decide (i < 0), digitsOf i) := by
    by_cases h : i < 0
    · simp [h, signed]
    · rw [if_neg h, List.nil_append, decide_eq_false h, signed]
      · exact fun cs same => digitsOf_ne_sign i cs same
      · intro cs same
        exact absurd (isDigit_of_mem_digitsOf '+' (same ▸ List.mem_cons_self)) (by decide)
  have nonempty : (digitsOf i).map (fun c => c.toNat - 48) ≠ [] := by
    simp [digitsOf, Nat.toDigits_ne_nil]
  have value : Nat.ofDigitChars 10 (digitsOf i) 0 = i.natAbs := Nat.ofDigitChars_ten_toDigits
  rw [integer?, trimBoth_isPadding chars, toList_toString, sign]
  simp only [bind, digits?_of_isDigit isDigit_of_mem_digitsOf, Option.bind_some, List.length_map,
    ofDigits_map, value, List.isEmpty_iff, nonempty, false_or]
  by_cases h : Short i
  · rw [if_neg (Nat.not_lt.2 h), if_pos h]
    refine congrArg some ?_
    by_cases negative : i < 0
    · rw [if_pos (decide_eq_true negative)]
      omega
    · rw [if_neg (by simpa using negative)]
      omega
  · rw [if_pos (Nat.lt_of_not_le h), if_neg h]

end PropertyMetadata.Number
