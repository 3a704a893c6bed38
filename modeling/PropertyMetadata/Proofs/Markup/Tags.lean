import Mathlib.Data.List.Forall2
import PropertyMetadata.Markup.Printer
import PropertyMetadata.Markup.Reader

/-! The parts of tags, read as they were written. A character of a value is written as itself or as
a reference to it, so a value is read back whatever it holds; the attributes of a tag are read back
one by one, each with the name and the value that it was given. -/

namespace PropertyMetadata.Markup

open List (Forall₂)

variable {c : Char} {w cs rest : List Char}

/-! ### Names -/

def isName : List Char → Bool
  | [] => false
  | c :: cs => isNameStart c && cs.all isNameChar

theorem isName_iff : isName w = true ↔
    ∃ d ds, w = d :: ds ∧ isNameStart d = true ∧ ∀ e ∈ ds, isNameChar e = true := by
  cases w with
  | nil => simp [isName]
  | cons d ds => simp [isName]

theorem simpleName_append (hw : isName w = true) (hc : isNameChar c = false) :
    simpleName (w ++ c :: rest) = .ok (w, c :: rest) := by
  obtain ⟨d, ds, rfl, first, others⟩ := isName_iff.1 hw
  have taken : (ds ++ c :: rest).takeWhile isNameChar = ds := by
    rw [List.takeWhile_append_of_pos others, List.takeWhile_cons_of_neg (by simp [hc]),
      List.append_nil]
  have left : (ds ++ c :: rest).dropWhile isNameChar = c :: rest := by
    rw [List.dropWhile_append_of_pos others, List.dropWhile_cons_of_neg (by simp [hc])]
  rw [List.cons_append, simpleName, if_pos first, taken, left]

theorem writtenName_append (hw : isName w = true) (hc : isNameChar c = false) (colon : c ≠ ':') :
    writtenName (w ++ c :: rest) = .ok (⟨none, w⟩, c :: rest) := by
  rw [writtenName, simpleName_append hw hc]
  simp only [bind, Except.bind]
  split
  next rest' h => exact absurd (List.cons.inj h).1 colon
  next => rfl

def bare (key : String) : WrittenName := ⟨none, key.toList⟩

/-! ### References -/

/-- A part that refers to a character. -/
inductive Piece.Refers : Piece → Char → Prop
  | numbered {n : Nat} {whole : List Char} : n.isValidChar → isLegal (Char.ofNat n) = true →
    Refers (.numbered n whole) (Char.ofNat n)
  | named {n : List Char} {whole : List Char} {c : Char} :
    namedChars.find? (fun p => p.1 == n) = some (n, c) → Refers (.named n whole) c

theorem Piece.Refers.char_eq {p : Piece} (h : p.Refers c) : p.char = .ok c := by
  cases h with
  | numbered valid legal => simp [Piece.char, valid, legal]
  | named found => simp [Piece.char, found]

/-- A character is written as a reference to it. -/
def IsReference (ds : List Char) (c : Char) : Prop :=
  ∃ w, ds = '&' :: w ++ [';'] ∧
    ∀ whole rest, ∃ p, reference whole (w ++ ';' :: rest) = .ok (p, rest) ∧ p.Refers c

theorem isReference_named (hw : isName w = true)
    (found : namedChars.find? (fun p => p.1 == w) = some (w, c)) :
    IsReference ('&' :: w ++ [';']) c := by
  obtain ⟨d, ds, rfl, first, -⟩ := isName_iff.1 hw
  have other : d ≠ '#' := by
    rintro rfl
    exact absurd first (by decide)
  refine ⟨_, rfl, fun whole rest => ⟨.named (d :: ds) whole, ?_, .named found⟩⟩
  rw [reference]
  · rw [simpleName_append hw (by decide)]
    rfl
  · intro cs h
    exact other (List.cons.inj h).1
  · intro cs h
    exact other (List.cons.inj h).1

theorem isReference_numbered (n : Nat) (tens ones : Char) (valid : n.isValidChar)
    (legal : isLegal (Char.ofNat n) = true)
    (read : ∀ rest, codeDigits 10 decimalValue? 0 (tens :: ones :: ';' :: rest) = .ok (n, rest))
    (digit : tens ≠ 'x' ∧ tens ≠ ';') :
    IsReference ['&', '#', tens, ones, ';'] (Char.ofNat n) := by
  refine ⟨['#', tens, ones], rfl, fun whole rest => ⟨.numbered n whole, ?_, .numbered valid legal⟩⟩
  show reference whole ('#' :: tens :: ones :: ';' :: rest) = _
  rw [reference]
  · rw [code, read]
    · rfl
    · intro cs h
      exact digit.2 (List.cons.inj h).1
  · intro cs h
    exact digit.1 (List.cons.inj h).1

/-- In text a character is written as itself unless it would begin markup. -/
theorem textChar_cases (c : Char) :
    (textChar c = [c] ∧ c ≠ '&' ∧ c ≠ '<' ∧ c ≠ '>') ∨ IsReference (textChar c) c := by
  unfold textChar
  split
  next h => exact .inr (h ▸ isReference_named (w := "amp".toList) (by decide) (by decide))
  split
  next h => exact .inr (h ▸ isReference_named (w := "lt".toList) (by decide) (by decide))
  split
  next h => exact .inr (h ▸ isReference_named (w := "gt".toList) (by decide) (by decide))
  next h₁ h₂ h₃ => exact .inl ⟨rfl, h₁, h₂, h₃⟩

/-- In a value, unless it would end the value or be read as a space, too. -/
theorem valueChar_cases (c : Char) :
    (valueChar c = [c] ∧ c ≠ '"' ∧ c ≠ '&' ∧ c ≠ '<' ∧ (isGap c = true → c = ' ')) ∨
      IsReference (valueChar c) c := by
  unfold valueChar
  split
  next h => exact .inr (h ▸ isReference_named (w := "quot".toList) (by decide) (by decide))
  split
  next h =>
    have refers := isReference_numbered 13 '1' '3' (by decide) (by decide) (fun _ => rfl) (by decide)
    exact .inr (h ▸ refers)
  split
  next h =>
    have refers := isReference_numbered 10 '1' '0' (by decide) (by decide) (fun _ => rfl) (by decide)
    exact .inr (h ▸ refers)
  split
  next h =>
    have refers := isReference_numbered 9 '0' '9' (by decide) (by decide) (fun _ => rfl) (by decide)
    exact .inr (h ▸ refers)
  next h₁ h₂ h₃ h₄ =>
    refine (textChar_cases c).imp_left ?_
    rintro ⟨same, h₅, h₆, -⟩
    refine ⟨same, h₁, h₅, h₆, fun gap => ?_⟩
    simpa [isGap, h₂, h₃, h₄] using gap

/-! ### Values -/

/-- A part of a value stands for a character: the character itself, unless it would be read as a
space, or a reference. -/
inductive Piece.Means : Piece → Char → Prop
  | plain {c : Char} : (isGap c = true → c = ' ') → Means (.plain c) c
  | referring {p : Piece} {c : Char} : p.Refers c → Means p c

theorem valueChars_means {ps : List Piece} (h : Forall₂ Piece.Means ps cs) :
    valueChars ps = .ok cs := by
  induction h with
  | nil => rfl
  | @cons p c ps cs hp _ ih =>
    cases hp with
    | plain gap =>
      have other : c ≠ '\r' := by
        rintro rfl
        exact absurd (gap (by decide)) (by decide)
      have same : (if isGap c = true then ' ' else c) = c := by
        split
        next g => exact (gap g).symm
        next => rfl
      rw [valueChars, ih, same]
      · rfl
      · exact fun _ _ h => other h
    | referring hp =>
      have char := hp.char_eq
      cases hp <;> simp only [valueChars, char, ih] <;> rfl

theorem attributeValue_flatMap (legal : ∀ c ∈ cs, isLegal c = true) (rest : List Char)
    {fuel : Nat} (h : cs.length < fuel) : ∃ ps, Forall₂ Piece.Means ps cs ∧
      attributeValue '"' fuel (cs.flatMap valueChar ++ '"' :: rest) = .ok (ps, rest) := by
  induction cs generalizing fuel with
  | nil =>
    obtain ⟨fuel, rfl⟩ := Nat.exists_eq_succ_of_ne_zero (Nat.ne_zero_of_lt h)
    exact ⟨[], .nil, rfl⟩
  | cons c cs ih =>
    obtain ⟨fuel, rfl⟩ := Nat.exists_eq_succ_of_ne_zero (Nat.ne_zero_of_lt h)
    have enough : cs.length < fuel := by simpa using h
    obtain ⟨ps, means, read⟩ := ih (fun d hd => legal d (List.mem_cons_of_mem _ hd)) enough
    rw [List.flatMap_cons, List.append_assoc]
    rcases valueChar_cases c with ⟨same, quote, amp, lt, gap⟩ | ⟨w, same, refers⟩
    · refine ⟨.plain c :: ps, .cons (.plain gap) means, ?_⟩
      rw [same, List.singleton_append, attributeValue, if_neg quote, if_neg amp,
        if_neg (by simp [lt, legal c List.mem_cons_self]), read]
      rfl
    · obtain ⟨p, referred, hp⟩ := refers ('&' :: (w ++ ';' :: (cs.flatMap valueChar ++ '"' :: rest)))
        (cs.flatMap valueChar ++ '"' :: rest)
      refine ⟨p :: ps, .cons (.referring hp) means, ?_⟩
      rw [same, List.cons_append, List.cons_append, List.append_assoc, List.singleton_append,
        attributeValue, if_neg (by decide), if_pos rfl, referred]
      simp only [bind, Except.bind, read]
      rfl

theorem length_le_length_flatMap (cs : List Char) :
    cs.length ≤ (cs.flatMap valueChar).length := by
  induction cs with
  | nil => exact Nat.le_refl 0
  | cons c cs ih =>
    have one : 1 ≤ (valueChar c).length := by
      rcases valueChar_cases c with ⟨same, -⟩ | ⟨w, same, -⟩ <;> rw [same] <;> simp
    rw [List.flatMap_cons, List.length_append, List.length_cons]
    omega

/-! ### Attributes and tags -/

/-- An attribute is read as one of this name and this value. -/
structure WrittenAttribute.Reads (a : WrittenAttribute) (key value : String) : Prop where
  name : a.name = bare key
  value : valueChars a.value = .ok value.toList

/-- An attribute that can be written: its name is one, and its value holds no characters that no
document holds. -/
def IsWritable (a : String × String) : Prop :=
  isName a.1.toList = true ∧ ∀ c ∈ a.2.toList, isLegal c = true

theorem writtenAttribute_append {a : String × String} (h : IsWritable a) (rest : List Char) :
    ∃ w : WrittenAttribute, w.Reads a.1 a.2 ∧
      writtenAttribute (a.1.toList ++ '=' :: '"' :: (a.2.toList.flatMap valueChar ++ '"' :: rest)) =
        .ok (w, rest) := by
  obtain ⟨hk, hv⟩ := h
  let quoted := a.2.toList.flatMap valueChar ++ '"' :: rest
  have enough : a.2.toList.length < quoted.length + 1 := by
    have := length_le_length_flatMap a.2.toList
    rw [List.length_append]
    omega
  obtain ⟨ps, means, read⟩ := attributeValue_flatMap hv rest enough
  have sign : skipGaps ('=' :: '"' :: quoted) = '=' :: '"' :: quoted := rfl
  have quote : skipGaps ('"' :: quoted) = '"' :: quoted := rfl
  refine ⟨⟨⟨none, a.1.toList⟩, ps, a.1.toList ++ '=' :: '"' :: quoted⟩,
    ⟨rfl, valueChars_means means⟩, ?_⟩
  rw [writtenAttribute, writtenName_append hk (by decide) (by decide)]
  simp only [bind, Except.bind, sign, quote, true_or, if_true, quoted, read]
  rfl

theorem printedAttribute_append (key value : String) (rest : List Char) :
    printedAttribute key value ++ rest = ' ' ::
      (key.toList ++ '=' :: '"' :: (value.toList.flatMap valueChar ++ '"' :: rest)) := by
  simp [printedAttribute]

theorem startTagRest_gap (spaced : Bool) (fuel : Nat) (cs : List Char) :
    startTagRest spaced (fuel + 1) (' ' :: cs) = startTagRest true fuel cs := by
  simp [startTagRest, isGap]

theorem startTagRest_name (hc : isNameStart c = true) (fuel : Nat) (cs : List Char) :
    startTagRest true (fuel + 1) (c :: cs) = (do
      let (a, rest) ← writtenAttribute (c :: cs)
      let ((as, isEmpty), rest) ← startTagRest false fuel rest
      return ((a :: as, isEmpty), rest)) := by
  have other (d : Char) (hd : isNameStart d = false) : c ≠ d := by
    rintro rfl
    rw [hc] at hd
    contradiction
  have gap : isGap c = false := by
    simp [isGap, other ' ' (by decide), other '\t' (by decide), other '\n' (by decide),
      other '\r' (by decide)]
  rw [startTagRest, gap]
  · rfl
  · exact other '>' (by decide)
  · intro cs h
    exact absurd h (other '/' (by decide))
  · exact other '/' (by decide)

def tagEnd (isEmpty : Bool) : List Char := if isEmpty then " />".toList else ['>']

theorem startTagRest_tagEnd (isEmpty spaced : Bool) {fuel : Nat} (h : 1 < fuel) :
    startTagRest spaced fuel (tagEnd isEmpty ++ rest) = .ok (([], isEmpty), rest) := by
  obtain ⟨fuel, rfl⟩ : ∃ n, fuel = n + 2 := ⟨fuel - 2, by omega⟩
  cases isEmpty
  · rfl
  · show startTagRest spaced (fuel + 2) (' ' :: '/' :: '>' :: rest) = _
    rw [startTagRest_gap]
    rfl

theorem startTagRest_flatMap {as : List (String × String)} (h : ∀ a ∈ as, IsWritable a)
    (isEmpty spaced : Bool) (rest : List Char) {fuel : Nat}
    (enough : (as.flatMap fun a => printedAttribute a.1 a.2).length + 1 < fuel) :
    ∃ was, Forall₂ (fun w a => w.Reads a.1 a.2) was as ∧
      startTagRest spaced fuel
        ((as.flatMap fun a => printedAttribute a.1 a.2) ++ (tagEnd isEmpty ++ rest)) =
          .ok ((was, isEmpty), rest) := by
  induction as generalizing spaced fuel with
  | nil => exact ⟨[], .nil, startTagRest_tagEnd isEmpty spaced enough⟩
  | cons a as ih =>
    obtain ⟨ha, has⟩ := List.forall_mem_cons.1 h
    have two : 2 ≤ (printedAttribute a.1 a.2).length := by
      simp only [printedAttribute, List.length_append, List.length_cons]
      omega
    rw [List.flatMap_cons, List.length_append] at enough
    obtain ⟨fuel, rfl⟩ : ∃ n, fuel = n + 2 := ⟨fuel - 2, by omega⟩
    have others : (as.flatMap fun a => printedAttribute a.1 a.2).length + 1 < fuel := by omega
    obtain ⟨was, reads, others⟩ := ih has false others
    obtain ⟨d, ds, name, first, -⟩ := isName_iff.1 ha.1
    obtain ⟨w, hw, read⟩ := writtenAttribute_append ha
      ((as.flatMap fun a => printedAttribute a.1 a.2) ++ (tagEnd isEmpty ++ rest))
    refine ⟨w :: was, .cons hw reads, ?_⟩
    rw [name, List.cons_append] at read
    rw [List.flatMap_cons, List.append_assoc, printedAttribute_append, startTagRest_gap, name,
      List.cons_append, startTagRest_name first, read]
    simp only [bind, Except.bind, others]
    rfl

theorem startTag_append {base : String} {as : List (String × String)}
    (hb : isName base.toList = true) (has : ∀ a ∈ as, IsWritable a) (isEmpty : Bool)
    (rest : List Char) : ∃ was, Forall₂ (fun w a => w.Reads a.1 a.2) was as ∧
      startTag (base.toList ++ ((as.flatMap fun a => printedAttribute a.1 a.2) ++
        (tagEnd isEmpty ++ rest))) = .ok (⟨bare base, was, isEmpty⟩, rest) := by
  let behind := (as.flatMap fun a => printedAttribute a.1 a.2) ++ (tagEnd isEmpty ++ rest)
  have enough : (as.flatMap fun a => printedAttribute a.1 a.2).length + 1 < behind.length + 1 := by
    have : 1 ≤ (tagEnd isEmpty).length := by cases isEmpty <;> decide
    simp only [behind, List.length_append]
    omega
  obtain ⟨was, reads, read⟩ := startTagRest_flatMap has isEmpty false rest enough
  have head : ∃ c cs, behind = c :: cs ∧ isNameChar c = false ∧ c ≠ ':' := by
    cases as with
    | nil =>
      cases isEmpty
      · exact ⟨'>', rest, rfl, by decide, by decide⟩
      · exact ⟨' ', _, rfl, by decide, by decide⟩
    | cons a as => exact ⟨' ', _, rfl, by decide, by decide⟩
  refine ⟨was, reads, ?_⟩
  obtain ⟨c, cs, hc, ends, colon⟩ := head
  have named : writtenName (base.toList ++ behind) = .ok (⟨none, base.toList⟩, behind) := by
    rw [hc]
    exact writtenName_append hb ends colon
  show startTag (base.toList ++ behind) = _
  rw [startTag, named]
  simp only [bind, Except.bind, behind, read]
  rfl

/-! ### Elements of tags -/

theorem bare_inj {key key' : String} : bare key = bare key' ↔ key = key' := by
  simp [bare, String.toList_inj]

theorem bound?_bare (key : String) :
    (bare key).bound? = if key = "xmlns" then some none else none := by
  have same : (bare key).base = bindingName ↔ key = "xmlns" := String.toList_inj
  simp only [WrittenName.bound?, bare] at same ⊢
  simp only [same]

variable {was : List WrittenAttribute} {as : List (String × String)}

theorem attributeValues_eq (h : Forall₂ (fun w a => w.Reads a.1 a.2) was as)
    (distinct : (as.map (·.1)).Nodup) {seen : List WrittenName} (new : ∀ a ∈ as, bare a.1 ∉ seen) :
    attributeValues seen was = .ok (as.map fun a => (bare a.1, a.2)) := by
  induction h generalizing seen with
  | nil => rfl
  | @cons w a was as hw _ ih =>
    obtain ⟨ha, has⟩ := List.forall_mem_cons.1 new
    obtain ⟨apart, distinct⟩ := List.nodup_cons.1 distinct
    have others : attributeValues (bare a.1 :: seen) was =
        .ok (as.map fun a => (bare a.1, a.2)) := ih distinct fun b hb => by
      rw [List.mem_cons, bare_inj, not_or]
      exact ⟨fun same => apart (List.mem_map.2 ⟨b, hb, same⟩), has b hb⟩
    rw [attributeValues, hw.name, if_neg ha, hw.value]
    simp only [bind, Except.bind, others, String.ofList_toList]
    rfl

/-- What an attribute binds: a namespace for elements, if anything. -/
def binding (a : String × String) : Option (Option (List Char) × String) :=
  if a.1 = "xmlns" then some (none, a.2) else none

theorem extended_eq (s : Scope) (as : List (String × String)) :
    s.extended (as.map fun a => (bare a.1, a.2)) = (as.filterMap binding).reverse ++ s := by
  have bound : ((fun a : WrittenName × String => a.1.bound?.map fun p => (p, a.2)) ∘
      fun a : String × String => (bare a.1, a.2)) = binding := by
    funext a
    simp only [Function.comp_apply, bound?_bare, binding]
    split <;> rfl
  rw [Scope.extended, List.filterMap_map, bound]

/-- The attributes of an element are those of its tag but for the binding of a namespace. -/
theorem namedAttributes_eq (s : Scope) (token : List Char) (distinct : (as.map (·.1)).Nodup)
    {seen : List Name} (new : ∀ a ∈ as, ⟨"", a.1⟩ ∉ seen) :
    namedAttributes s token seen (as.map fun a => (bare a.1, a.2)) =
      .ok ((as.filter fun a => a.1 ≠ "xmlns").map fun a => (⟨"", a.1⟩, a.2)) := by
  induction as generalizing seen with
  | nil => rfl
  | cons a as ih =>
    obtain ⟨ha, has⟩ := List.forall_mem_cons.1 new
    obtain ⟨apart, distinct⟩ := List.nodup_cons.1 distinct
    rw [List.map_cons, namedAttributes, bound?_bare]
    by_cases h : a.1 = "xmlns"
    · simp [h, ih distinct has]
    · have others : namedAttributes s token (⟨"", a.1⟩ :: seen) (as.map fun a => (bare a.1, a.2)) =
          .ok ((as.filter fun a => a.1 ≠ "xmlns").map fun a => (⟨"", a.1⟩, a.2)) :=
        ih distinct fun b hb => by
        rw [List.mem_cons, Name.mk.injEq, not_or]
        exact ⟨fun same => apart (List.mem_map.2 ⟨b, hb, same.2⟩), has b hb⟩
      have name : attributeName s token (bare a.1) = .ok ⟨"", a.1⟩ := by
        simp [attributeName, bare]
      simp [h, name, ha, others, bind, Except.bind, pure, Except.pure]

theorem ofTag_eq {s : Scope} {base sp : String} (token : List Char) {isEmpty : Bool}
    (h : Forall₂ (fun w a => w.Reads a.1 a.2) was as) (distinct : (as.map (·.1)).Nodup)
    (scope : Scope.find? ((as.filterMap binding).reverse ++ s) none = some sp) :
    Open.ofTag s token ⟨bare base, was, isEmpty⟩ = .ok {
      written := bare base
      name := ⟨sp, base⟩
      attributes := (as.filter fun a => a.1 ≠ "xmlns").map fun a => (⟨"", a.1⟩, a.2)
      scope := (as.filterMap binding).reverse ++ s } := by
  have name : elementName ((as.filterMap binding).reverse ++ s) token (bare base) =
      .ok ⟨sp, base⟩ := by
    simp only [elementName, bare] at scope ⊢
    simp [scope]
  have fresh : ∀ a ∈ as, (⟨"", a.1⟩ : Name) ∉ [] := by simp
  rw [Open.ofTag, attributeValues_eq h distinct (by simp)]
  simp only [bind, Except.bind, extended_eq, namedAttributes_eq _ token distinct fresh, name]
  rfl

end PropertyMetadata.Markup
