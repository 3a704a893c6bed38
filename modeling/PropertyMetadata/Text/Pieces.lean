import PropertyMetadata.Text.CharClass

/-! Cutting text at a separator, joining it again, and trimming. The pieces of a text, joined by
the separator, give the text back. -/

namespace PropertyMetadata.Text

/-- The pieces between the occurrences of a separator, one more than there are separators. -/
def pieces (sep : Char) : List Char → List (List Char)
  | [] => [[]]
  | c :: cs =>
    if c = sep then [] :: pieces sep cs
    else match pieces sep cs with
      | [] => [[c]]
      | p :: ps => (c :: p) :: ps

def joined (sep : Char) : List (List Char) → List Char
  | [] => []
  | [p] => p
  | p :: q :: ps => p ++ sep :: joined sep (q :: ps)

theorem pieces_ne_nil (sep : Char) (cs : List Char) : pieces sep cs ≠ [] := by
  cases cs with
  | nil => simp [pieces]
  | cons c cs => simp only [pieces]; split; · simp
                 split <;> simp

theorem joined_pieces (sep : Char) (cs : List Char) : joined sep (pieces sep cs) = cs := by
  induction cs with
  | nil => rfl
  | cons c cs ih =>
    simp only [pieces]
    match h : pieces sep cs with
    | [] => exact absurd h (pieces_ne_nil sep cs)
    | [p] => rw [h] at ih; split <;> simp_all [joined]
    | p :: q :: ps => rw [h] at ih; split <;> simp_all [joined]

theorem not_mem_of_mem_pieces {sep : Char} {cs p : List Char} (h : p ∈ pieces sep cs) :
    sep ∉ p := by
  induction cs generalizing p with
  | nil => simp_all [pieces]
  | cons c cs ih =>
    simp only [pieces] at h
    split at h
    next =>
      rcases List.mem_cons.1 h with rfl | h
      · exact List.not_mem_nil
      · exact ih h
    next hc =>
      split at h
      next hp => exact absurd hp (pieces_ne_nil sep cs)
      next q qs hp =>
        rcases List.mem_cons.1 h with rfl | h
        · have := ih (hp ▸ List.mem_cons_self)
          simp [Ne.symm hc, this]
        · exact ih (hp ▸ List.mem_cons_of_mem q h)

theorem pieces_of_not_mem {sep : Char} {cs : List Char} (h : sep ∉ cs) : pieces sep cs = [cs] := by
  induction cs with
  | nil => rfl
  | cons c cs ih =>
    simp only [List.mem_cons, not_or] at h
    simp [pieces, Ne.symm h.1, ih h.2]

/-- A separator ends one piece and begins another. -/
theorem pieces_append (sep : Char) (cs ds : List Char) :
    pieces sep (cs ++ sep :: ds) = pieces sep cs ++ pieces sep ds := by
  induction cs with
  | nil => simp [pieces]
  | cons c cs ih =>
    simp only [List.cons_append, pieces, ih]
    split
    · rfl
    · match h : pieces sep cs with
      | [] => exact absurd h (pieces_ne_nil sep cs)
      | p :: ps => rfl

theorem pieces_joined {sep : Char} {ps : List (List Char)} (hne : ps ≠ [])
    (h : ∀ p ∈ ps, sep ∉ p) : pieces sep (joined sep ps) = ps := by
  induction ps with
  | nil => exact absurd rfl hne
  | cons p ps ih =>
    obtain ⟨hp, hps⟩ := List.forall_mem_cons.1 h
    cases ps with
    | nil => exact pieces_of_not_mem hp
    | cons q qs =>
      rw [joined, pieces_append, pieces_of_not_mem hp, ih (List.cons_ne_nil q qs) hps]
      rfl

def split (sep : Char) (s : String) : List String := (pieces sep s.toList).map String.ofList

theorem not_mem_of_mem_split {sep : Char} {s t : String} (h : t ∈ split sep s) :
    sep ∉ t.toList := by
  obtain ⟨p, hp, rfl⟩ := List.mem_map.1 h
  simpa using not_mem_of_mem_pieces hp

theorem split_append (sep : Char) (s t : String) :
    split sep (s ++ String.singleton sep ++ t) = split sep s ++ split sep t := by
  simp [split, pieces_append]

theorem split_joined {sep : Char} {ss : List String} (hne : ss ≠ [])
    (h : ∀ s ∈ ss, sep ∉ s.toList) :
    split sep (String.ofList (joined sep (ss.map String.toList))) = ss := by
  rw [split, String.toList_ofList, pieces_joined (by simpa using hne) (by simpa using h)]
  simp [Function.comp_def]

theorem intercalate_eq_joined (sep : Char) (ss : List String) :
    (String.singleton sep).intercalate ss = String.ofList (joined sep (ss.map String.toList)) := by
  induction ss with
  | nil => rfl
  | cons s ss ih =>
    cases ss with
    | nil => simp [joined]
    | cons t ss =>
      rw [String.intercalate_cons_cons, ih, ← String.toList_inj]
      simp [joined]

/-- Text with the characters of a kind removed from its end. -/
def trimEnd (p : Char → Bool) (cs : List Char) : List Char := (cs.reverse.dropWhile p).reverse

/-- Text with the characters of a kind removed from both ends. -/
def trimBoth (p : Char → Bool) (cs : List Char) : List Char := trimEnd p (cs.dropWhile p)

section Trimming

variable {p : Char → Bool} {cs : List Char} {c : Char}

theorem dropWhile_eq_self_iff : cs.dropWhile p = cs ↔ ∀ c, cs.head? = some c → p c = false := by
  cases cs with
  | nil => simp
  | cons d cs =>
    simp only [List.head?_cons, Option.some.injEq, forall_eq']
    cases hd : p d with
    | false => simp [hd]
    | true =>
      have shorter : (cs.dropWhile p).length ≤ cs.length := (List.dropWhile_sublist p).length_le
      rw [List.dropWhile_cons_of_pos hd]
      refine ⟨fun same => ?_, nofun⟩
      rw [same, List.length_cons] at shorter
      omega

theorem trimEnd_eq_self_iff : trimEnd p cs = cs ↔ ∀ c, cs.getLast? = some c → p c = false := by
  rw [trimEnd, List.reverse_eq_iff, dropWhile_eq_self_iff, List.head?_reverse]

theorem isPrefix_trimEnd (p : Char → Bool) (cs : List Char) : trimEnd p cs <+: cs := by
  have suffix := List.reverse_prefix.2 (List.dropWhile_suffix p (l := cs.reverse))
  rwa [List.reverse_reverse] at suffix

/-- Nothing is removed from a text that begins and ends with characters of another kind. -/
theorem trimBoth_eq_self_iff : trimBoth p cs = cs ↔
    (∀ c, cs.head? = some c → p c = false) ∧ ∀ c, cs.getLast? = some c → p c = false := by
  rw [← dropWhile_eq_self_iff, ← trimEnd_eq_self_iff, trimBoth]
  constructor
  · intro same
    have whole : cs.dropWhile p = cs := by
      have long := (isPrefix_trimEnd p (cs.dropWhile p)).length_le
      rw [same] at long
      exact (List.dropWhile_sublist p).eq_of_length_le long
    exact ⟨whole, by rwa [whole] at same⟩
  · rintro ⟨first, last⟩
    rw [first, last]

theorem trimBoth_of_all (h : ∀ c ∈ cs, p c = false) : trimBoth p cs = cs :=
  trimBoth_eq_self_iff.2 ⟨fun c hc => h c (List.mem_of_mem_head? hc),
    fun c hc => h c (List.mem_of_getLast? hc)⟩

theorem not_of_head?_dropWhile (h : (cs.dropWhile p).head? = some c) : p c = false := by
  have first := List.head?_dropWhile_not p cs
  rwa [h] at first

/-- What is left begins and ends with characters of another kind. -/
theorem trimBoth_trimBoth (p : Char → Bool) (cs : List Char) :
    trimBoth p (trimBoth p cs) = trimBoth p cs := by
  refine trimBoth_eq_self_iff.2 ⟨fun c hc => ?_, fun c hc => ?_⟩
  · -- the first character is that of the text without its beginning
    obtain ⟨rest, whole⟩ := isPrefix_trimEnd p (cs.dropWhile p)
    have same : (cs.dropWhile p).head? = some c := by
      rw [← whole, List.head?_append, ← trimBoth, hc, Option.some_or]
    exact not_of_head?_dropWhile same
  · rw [trimBoth, trimEnd, List.getLast?_reverse] at hc
    exact not_of_head?_dropWhile hc

/-- What is removed stands around what is left, and consists of characters of the kind. -/
theorem exists_trimBoth (p : Char → Bool) (cs : List Char) : ∃ before after,
    cs = before ++ trimBoth p cs ++ after ∧ ∀ c ∈ before ++ after, p c = true := by
  refine ⟨cs.takeWhile p, ((cs.dropWhile p).reverse.takeWhile p).reverse, ?_, fun c hc => ?_⟩
  · have last : trimEnd p (cs.dropWhile p) ++ ((cs.dropWhile p).reverse.takeWhile p).reverse =
        cs.dropWhile p := by
      rw [trimEnd, ← List.reverse_append, List.takeWhile_append_dropWhile, List.reverse_reverse]
    rw [List.append_assoc, trimBoth, last, List.takeWhile_append_dropWhile]
  · rw [List.mem_append, List.mem_reverse] at hc
    exact hc.elim (List.all_eq_true.1 List.all_takeWhile c) (List.all_eq_true.1 List.all_takeWhile c)

/-- Marks around a text are removed together with those at its own ends. -/
theorem trimBoth_between (h : p c = true) : trimBoth p (c :: cs ++ [c]) = trimBoth p cs := by
  have last (ds : List Char) : trimEnd p (ds ++ [c]) = trimEnd p ds := by
    rw [trimEnd, trimEnd, List.reverse_append, List.reverse_singleton, List.singleton_append,
      List.dropWhile_cons_of_pos h]
  rw [List.cons_append, trimBoth, trimBoth, List.dropWhile_cons_of_pos h, List.dropWhile_append]
  split
  next none =>
    rw [List.isEmpty_iff.1 none, List.dropWhile_cons_of_pos h, List.dropWhile_nil]
  next some => exact last _

end Trimming

def trim (s : String) : String := String.ofList (trimBoth isBlank s.toList)

def occurs (needle : List Char) : List Char → Bool
  | [] => needle.isEmpty
  | c :: cs => needle.isPrefixOf (c :: cs) || occurs needle cs

theorem occurs_iff {needle cs : List Char} : occurs needle cs = true ↔ needle <:+: cs := by
  induction cs with
  | nil => simp [occurs]
  | cons c cs ih => simp [occurs, ih, List.infix_cons_iff]

/-- Text with every occurrence of one character replaced by another. -/
def replaced (old new : Char) (cs : List Char) : List Char :=
  cs.map fun c => if c = old then new else c

end PropertyMetadata.Text
