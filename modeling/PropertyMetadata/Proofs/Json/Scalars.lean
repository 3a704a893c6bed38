import PropertyMetadata.Json.Parser
import PropertyMetadata.Json.Printer
import PropertyMetadata.Proofs.Number.Integers

/-! The scalars of JSON that were printed, read again: strings, integers and words. Of a string the
closing quote tells where it ends; of an integer only what is behind it does. -/

namespace PropertyMetadata.Json

open Number Text

variable {cs rest : List Char}

/-! ### Strings -/

/-- The four digits of a control are read as its number. -/
theorem hexDigits_control : ∀ n < 0x20,
    hexDigits 4 n = ['0', '0', Nat.digitChar (n / 16), Nat.digitChar (n % 16)] ∧
      codeUnit? '0' '0' (Nat.digitChar (n / 16)) (Nat.digitChar (n % 16)) = some n := by
  decide

/-- A code point before those that are read next. -/
def withUnit (n : Nat) (r : Except Refusal (List Nat × List Char)) :
    Except Refusal (List Nat × List Char) :=
  r.map fun (us, rest) => (n :: us, rest)

theorem units_escape {opening : List Char} {c e : Char} (h : escaped? e = some c) (hu : e ≠ 'u') :
    units opening ('\\' :: e :: rest) = withUnit c.toNat (units opening rest) := by
  rw [units]
  · simp only [Char.reduceEq, if_false, if_true, hu, h]
    cases units opening rest <;> rfl
  · exact fun _ _ _ _ _ same _ => hu same

theorem units_hex {opening : List Char} {c : Char} (h : c.toNat < 0x20) (hne : rest ≠ []) :
    units opening ('\\' :: 'u' :: hexDigits 4 c.toNat ++ rest) =
      withUnit c.toNat (units opening rest) := by
  obtain ⟨digits, unit⟩ := hexDigits_control c.toNat h
  obtain ⟨d, ds, rfl⟩ := List.exists_cons_of_ne_nil hne
  rw [digits, units.eq_def]
  simp only [List.cons_append, List.nil_append, Char.reduceEq, if_false, if_true, unit]
  cases units opening (d :: ds) <;> rfl

theorem units_bare {opening : List Char} {c : Char} (hq : c ≠ '"') (hb : c ≠ '\\')
    (hc : ¬ c.toNat < 0x20) :
    units opening (c :: rest) = withUnit c.toNat (units opening rest) := by
  rw [units.eq_def]
  simp only [hq, hb, hc, if_false]
  cases units opening rest <;> rfl

/-- A character of a string is read as its code point, as long as the string goes on behind it. -/
theorem units_printedChar (opening : List Char) (c : Char) (h : rest ≠ []) :
    units opening (printedChar c ++ rest) = withUnit c.toNat (units opening rest) := by
  unfold printedChar
  split
  · next marked =>
    rcases marked with rfl | rfl
    · exact units_escape rfl (by decide)
    · exact units_escape rfl (by decide)
  next unmarked =>
    rw [not_or] at unmarked
    split
    · next same => exact same ▸ units_escape rfl (by decide)
    split
    · next same => exact same ▸ units_escape rfl (by decide)
    split
    · next same => exact same ▸ units_escape rfl (by decide)
    split
    · next same => exact same ▸ units_escape rfl (by decide)
    split
    · next same => exact same ▸ units_escape rfl (by decide)
    split
    · next control => exact units_hex control h
    · next visible => exact units_bare unmarked.1 unmarked.2 visible

/-- The characters of a string are read up to the closing quote. -/
theorem units_flatMap (opening cs : List Char) :
    units opening (cs.flatMap printedChar ++ '"' :: rest) =
    .ok (cs.map Char.toNat, rest) := by
  induction cs with
  | nil => rw [List.flatMap_nil, List.nil_append, units.eq_def]; rfl
  | cons c cs ih =>
    rw [List.flatMap_cons, List.append_assoc, units_printedChar opening c (by simp), ih]
    rfl

/-- Code points of characters are no surrogates. -/
theorem characters_map (cs : List Char) : characters (cs.map Char.toNat) = cs := by
  have whole (c : Char) : ¬ (0xd800 ≤ c.toNat ∧ c.toNat < 0xe000) := by
    have := c.valid
    simp only [UInt32.isValidChar, Nat.isValidChar, Char.toNat] at this ⊢
    omega
  induction cs with
  | nil => rfl
  | cons c cs ih =>
    cases cs with
    | nil => simp [characters, whole]
    | cons d ds =>
      have high : ¬ (0xd800 ≤ c.toNat ∧ c.toNat < 0xdc00 ∧ 0xdc00 ≤ d.toNat ∧ d.toNat < 0xe000) := by
        have := whole c
        omega
      rw [List.map_cons, List.map_cons, characters, if_neg high, if_neg (whole c), Char.ofNat_toNat,
        ← List.map_cons, ih]

theorem toList_printedString (s : String) :
    (printedString s).toList = '"' :: (s.toList.flatMap printedChar ++ ['"']) := by
  rw [printedString, String.toList_ofList]
  rfl

theorem readString_printed (s : String) (rest : List Char) :
    readString ((printedString s).toList ++ rest) = .ok (s, rest) := by
  rw [toList_printedString, List.cons_append, List.append_assoc, readString, List.tail_cons,
    List.singleton_append, units_flatMap]
  simp [bind, Except.bind, characters_map, pure, Except.pure]

/-! ### Integers -/

/-- A text that does not go on with a number before it: it is empty, or begins with a blank or with
what closes a part. -/
def Closes (rest : List Char) : Prop :=
  ∀ c ∈ rest.head?, isSpace c = true ∨ c = ',' ∨ c = ']' ∨ c = '\x7d'

theorem Closes.not_digit {c : Char} (h : Closes (c :: cs)) :
    c.isDigit = false ∧ c ≠ '.' ∧ c ≠ 'e' ∧ c ≠ 'E' := by
  have shape := h c rfl
  simp only [isSpace, Bool.or_eq_true, beq_iff_eq] at shape
  rcases shape with (((rfl | rfl) | rfl) | rfl) | rfl | rfl | rfl <;> decide

theorem leadingDigits_append {ds : List Char} (digits : ∀ c ∈ ds, c.isDigit = true)
    (h : Closes rest) : leadingDigits (ds ++ rest) = (ds.map fun c => c.toNat - 48, rest) := by
  have ends : rest.takeWhile Char.isDigit = [] ∧ rest.dropWhile Char.isDigit = rest := by
    cases rest with
    | nil => exact ⟨rfl, rfl⟩
    | cons c cs => simp [h.not_digit.1]
  rw [leadingDigits, List.takeWhile_append_of_pos digits, List.dropWhile_append_of_pos digits,
    ends.1, ends.2, List.append_nil]

/-- Only zero is written with a zero in front. -/
theorem toDigits_ne_zero {n : Nat} (h : 0 < n) (cs : List Char) :
    Nat.toDigits 10 n ≠ '0' :: cs := by
  induction n using Nat.strongRecOn generalizing cs with
  | ind n ih =>
    rw [Nat.toDigits_eq_if (by decide)]
    split
    · next single =>
      have digits : ∀ n < 10, 0 < n → Nat.digitChar n ≠ '0' := by decide
      exact fun same => digits n single h (List.cons.inj same).1
    · next more =>
      obtain ⟨d, ds, front⟩ :=
        List.exists_cons_of_ne_nil (Nat.toDigits_ne_nil (b := 10) (n := n / 10))
      rw [front]
      intro same
      obtain rfl := (List.cons.inj same).1
      exact ih (n / 10) (by omega) (by omega) ds front

theorem wholeDigits?_digitsOf (i : Int) (h : Closes rest) : wholeDigits? (digitsOf i ++ rest) =
    some ((digitsOf i).map fun c => c.toNat - 48, rest) := by
  have digits := isDigit_of_mem_digitsOf (i := i)
  by_cases zero : i.natAbs = 0
  · rw [digitsOf, zero, Nat.toDigits_zero]
    rfl
  · obtain ⟨d, ds, first, digit⟩ := exists_digitsOf i
    have nonzero : d ≠ '0' := by
      rintro rfl
      exact toDigits_ne_zero (by omega) ds first
    have read := leadingDigits_append digits h
    rw [first] at digits read ⊢
    rw [List.cons_append] at read ⊢
    rw [wholeDigits?, if_pos digit, read]
    exact fun same => nonzero same

/-- Nothing behind an integer belongs to it. -/
theorem readNumber_toString (i : Int) (h : Closes rest) :
    readNumber ((toString i).toList ++ rest) = .ok (.int i, rest) := by
  have whole := wholeDigits?_digitsOf i h
  have fraction : fractionDigits rest = ([], rest) := by
    cases rest with
    | nil => rfl
    | cons c cs =>
      rw [fractionDigits]
      intro d ds same
      exact absurd (List.cons.inj same).1 h.not_digit.2.1
  have exponent : exponentPart rest = (none, rest) := by
    cases rest with
    | nil => rfl
    | cons c cs => rw [exponentPart, if_neg (by simp [h.not_digit])]
  have value : ofDigits ((digitsOf i).map fun c => c.toNat - 48) = i.natAbs := by
    rw [ofDigits_map]
    exact Nat.ofDigitChars_ten_toDigits
  have unsigned (cs : List Char) : digitsOf i ++ rest ≠ '-' :: cs := by
    obtain ⟨d, ds, digits, digit⟩ := exists_digitsOf i
    rw [digits, List.cons_append]
    intro same
    obtain rfl := (List.cons.inj same).1
    cases digit
  rw [toList_toString]
  generalize digitsOf i = digits at *
  by_cases negative : i < 0
  · have sign : -(i.natAbs : Int) = i := by omega
    rw [if_pos negative, List.singleton_append, List.cons_append]
    unfold readNumber
    simp only [whole, fraction, exponent, value, List.isEmpty_nil, Option.isNone_none, and_self,
      if_true, sign]
  · have sign : (i.natAbs : Int) = i := by omega
    rw [if_neg negative, List.nil_append]
    unfold readNumber
    split
    next chosen =>
      split at chosen
      next same => exact absurd same (unsigned _)
      next =>
        cases chosen
        simp only [whole, fraction, exponent, value, List.isEmpty_nil, Option.isNone_none, and_self,
          if_true, Bool.false_eq_true, if_false, sign]

/-! ### Values of one part -/

theorem readValue_scalar {c : Char} (fuel : Nat) (hs : c ≠ '"') (ha : c ≠ '[') (ho : c ≠ '\x7b') :
    readValue (fuel + 1) (c :: cs) = readScalar (c :: cs) := by
  rw [readValue]
  · exact fun _ same => hs (List.cons.inj same).1
  · exact fun _ same => ha (List.cons.inj same).1
  · exact fun _ same => ho (List.cons.inj same).1

theorem readValue_string (fuel : Nat) (s : String) (rest : List Char) :
    readValue (fuel + 1) ((printedString s).toList ++ rest) = .ok (.string s, rest) := by
  have read := readString_printed s rest
  rw [toList_printedString, List.cons_append] at read ⊢
  rw [readValue, read]
  rfl

theorem find?_words {d : Char} (h : d.isDigit = true) (cs : List Char) (negative : Bool) :
    (words.find? fun w => w.1.isPrefixOf ((if negative then ['-'] else []) ++ d :: cs)) = none := by
  have other (c : Char) (hc : c.isDigit = false) : (c == d) = false := by
    rw [beq_eq_false_iff_ne]
    rintro rfl
    simp [h] at hc
  cases negative <;> simp [words, List.isPrefixOf, other]

theorem readValue_int (fuel : Nat) (i : Int) (h : Closes rest) :
    readValue (fuel + 1) ((toString i).toList ++ rest) = .ok (.int i, rest) := by
  have read := readNumber_toString i h
  obtain ⟨d, ds, digits, digit⟩ := exists_digitsOf i
  have no_word := find?_words digit (ds ++ rest) (decide (i < 0))
  have other (c : Char) (hc : c.isDigit = false) : d ≠ c := by
    rintro rfl
    simp [digit] at hc
  rw [toList_toString, digits] at read ⊢
  by_cases negative : i < 0
  · simp only [negative, if_true, decide_true, List.nil_append, List.cons_append] at read no_word ⊢
    rw [readValue_scalar fuel (by decide) (by decide) (by decide), readScalar, no_word, read]
  · simp only [negative, if_false, decide_false, Bool.false_eq_true, List.nil_append,
      List.cons_append] at read no_word ⊢
    rw [readValue_scalar fuel (other _ rfl) (other _ rfl) (other _ rfl), readScalar, no_word, read]

theorem readValue_null (fuel : Nat) (rest : List Char) :
    readValue (fuel + 1) ("null".toList ++ rest) = .ok (.null, rest) := by
  have text : "null".toList = ['n', 'u', 'l', 'l'] := rfl
  rw [text, List.cons_append, readValue_scalar fuel (by decide) (by decide) (by decide)]
  simp [readScalar, words]

theorem readValue_bool (fuel : Nat) (b : Bool) (rest : List Char) :
    readValue (fuel + 1) ((if b then "true" else "false").toList ++ rest) = .ok (.bool b, rest) := by
  cases b with
  | false =>
    have text : "false".toList = ['f', 'a', 'l', 's', 'e'] := rfl
    rw [if_neg (by decide), text, List.cons_append,
      readValue_scalar fuel (by decide) (by decide) (by decide)]
    simp [readScalar, words]
  | true =>
    have text : "true".toList = ['t', 'r', 'u', 'e'] := rfl
    rw [if_pos rfl, text, List.cons_append,
      readValue_scalar fuel (by decide) (by decide) (by decide)]
    simp [readScalar, words]

end PropertyMetadata.Json
