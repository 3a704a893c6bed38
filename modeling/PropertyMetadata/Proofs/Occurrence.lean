import PropertyMetadata.Text.Pieces

/-! Where words occur in longer texts. A word occurs in a text that is put together at a character
which is not in the word just when it occurs in one of the parts, since it cannot lie across. -/

namespace PropertyMetadata.Text

variable {c : Char} {word before behind cs : List Char}

/-- A word does not lie across a character that it does not have. -/
theorem infix_append_cons_iff (hc : c ∉ word) :
    word <:+: before ++ c :: behind ↔ word <:+: before ∨ word <:+: behind := by
  constructor
  · rintro ⟨ahead, rest, whole⟩
    rcases List.append_eq_append_iff.1 whole with ⟨more, rfl, -⟩ | ⟨across, ended, hbehind⟩
    · exact .inl ⟨ahead, more, rfl⟩
    cases across with
    | nil => exact .inl ⟨ahead, [], by simpa using ended⟩
    | cons x across =>
      obtain ⟨rfl, rfl⟩ := List.cons.inj hbehind
      rcases List.append_eq_append_iff.1 ended with ⟨shift, rfl, hword⟩ | ⟨shift, -, hacross⟩
      · exact absurd (hword ▸ by simp) hc
      cases shift with
      | nil =>
        obtain rfl : c :: across = word := hacross
        exact absurd List.mem_cons_self hc
      | cons _ shift =>
        obtain ⟨-, rfl⟩ := List.cons.inj hacross
        exact .inr ⟨shift, rest, rfl⟩
  · rintro (h | h)
    · exact h.trans (List.infix_append' [] before (c :: behind))
    · exact h.trans ⟨before ++ [c], [], by simp⟩

theorem infix_concat_iff_of_ne (hw : word ≠ []) (hl : word.getLast? ≠ some c) :
    word <:+: cs ++ [c] ↔ word <:+: cs := by
  rw [List.infix_concat_iff, or_iff_right]
  rintro ⟨front, whole⟩
  have last := congrArg List.getLast? whole
  rw [List.getLast?_append, List.getLast?_concat] at last
  cases hx : word.getLast? with
  | none => exact hw (List.getLast?_eq_none_iff.1 hx)
  | some x => exact hl (by rwa [hx] at last ⊢)

/-- A word without the separator occurs in what is joined just when it occurs in a piece. -/
theorem infix_joined_iff (hc : c ∉ word) (hw : word ≠ []) {ps : List (List Char)} :
    word <:+: joined c ps ↔ ∃ p ∈ ps, word <:+: p := by
  induction ps with
  | nil => simpa [joined] using hw
  | cons p ps ih =>
    cases ps with
    | nil => simp [joined]
    | cons q ps =>
      rw [joined, infix_append_cons_iff hc, ih]
      simp only [List.mem_cons, exists_eq_or_imp]

theorem infix_iff_pieces (hc : c ∉ word) (hw : word ≠ []) (cs : List Char) :
    word <:+: cs ↔ ∃ p ∈ pieces c cs, word <:+: p := by
  rw [← infix_joined_iff hc hw, joined_pieces]

/-- A word without the new character was there before the old one was replaced by it. -/
theorem infix_of_infix_replaced {old new : Char} (hn : new ∉ word)
    (h : word <:+: replaced old new cs) : word <:+: cs := by
  obtain ⟨ahead, rest, whole⟩ := h
  obtain ⟨front, rest', rfl, hfront, -⟩ := List.map_eq_append_iff.1 whole.symm
  obtain ⟨ahead', word', rfl, -, rfl⟩ := List.map_eq_append_iff.1 hfront
  have same : ∀ x ∈ word', (if x = old then new else x) = x := by
    intro x hx
    refine if_neg fun hold => hn ?_
    exact List.mem_map.2 ⟨x, hx, if_pos hold⟩
  rw [List.map_congr_left same, List.map_id']
  exact ⟨ahead', rest', rfl⟩

end PropertyMetadata.Text
