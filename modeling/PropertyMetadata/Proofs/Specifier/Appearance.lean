import PropertyMetadata.Proofs.Specifier.Relative

/-! What specifiers look like. A module loader goes by the first segment: behind a dot or a way up
it follows the rest from the file, and anything else is the name of a package to it. A specifier
that is made relative begins with a dot, which is less: the name of a directory may begin with a dot
as well. So a module looks like one of a package just when it lies below the directory of its file,
and the way down begins with such a name. -/

namespace PropertyMetadata

namespace Path

open Text

variable {start goal rest : List String} {s r : String}

/-! ### Ways down -/

theorem between_append_left (place start goal : List String) :
    between (place ++ start) (place ++ goal) = between start goal := by
  have further : shared (place ++ start) (place ++ goal) = place.length + shared start goal := by
    induction place with
    | nil => simp
    | cons s place ih =>
      simp only [List.cons_append, shared, if_true, ih, List.length_cons]
      omega
  simp only [between, further, List.length_append, Nat.add_sub_add_left, List.drop_length_add_append]

theorem between_below (start rest : List String) : between start (start ++ rest) = rest := by
  have away := between_append_left start [] rest
  rwa [List.append_nil] at away

/-- The way from a place leads down at once, or else up at first. -/
theorem between_cases (start goal : List String) :
    goal = start ++ between start goal ∨ ∃ ss, between start goal = ".." :: ss := by
  cases up : start.length - shared start goal with
  | zero =>
    have all : shared start goal = start.length :=
      Nat.le_antisymm (shared_le start goal) (Nat.sub_eq_zero_iff_le.1 up)
    have within := take_shared start goal
    rw [all, List.take_length] at within
    refine .inl ?_
    rw [between, up, all]
    conv_lhs => rw [← List.take_append_drop start.length goal, ← within]
    rfl
  | succ n =>
    refine .inr ⟨List.replicate n ".." ++ goal.drop (shared start goal), ?_⟩
    rw [between, up, List.replicate_succ, List.cons_append]

/-! ### First segments -/

theorem spell_split (r : String) : Specifier.spell (split '/' r) = r := by
  have parts : (split '/' r).map String.toList = pieces '/' r.toList := by
    simp [split, Function.comp_def]
  rw [Specifier.spell, parts, joined_pieces, String.ofList_toList]

/-- A text whose first segment is known is this segment alone or goes on behind a slash. -/
theorem head?_split_iff (hs : '/' ∉ s.toList) : (split '/' r).head? = some s ↔
    r = s ∨ (s ++ "/").toList <+: r.toList := by
  have alone : split '/' s = [s] := by
    rw [split, pieces_of_not_mem hs]
    simp
  constructor
  · intro first
    obtain ⟨ss, hss⟩ := List.head?_eq_some_iff.1 first
    have whole := spell_split r
    rw [hss] at whole
    cases ss with
    | nil => exact .inl (by simpa [Specifier.spell, joined] using whole.symm)
    | cons t ss =>
      refine .inr ⟨joined '/' ((t :: ss).map String.toList), ?_⟩
      rw [← whole]
      simp [Specifier.spell, joined]
  · rintro (rfl | ⟨cs, behind⟩)
    · rw [alone]
      rfl
    · have whole : r = s ++ "/" ++ String.ofList cs := by
        rw [← String.toList_inj, ← behind]
        simp
      rw [whole, split_slash, alone]
      rfl

end Path

namespace Specifier

open Text PropertyMetadata.Path

variable {home ss : List String} {path file r s : String}

/-- What a module loader follows from the file and takes for no name of a package. -/
def LooksRelative (r : String) : Prop :=
  r = "." ∨ r = ".." ∨ "./".toList <+: r.toList ∨ "../".toList <+: r.toList

instance (r : String) : Decidable (LooksRelative r) :=
  inferInstanceAs (Decidable (r = "." ∨ r = ".." ∨ _ ∨ _))

theorem looksRelative_iff :
    LooksRelative r ↔ (split '/' r).head? = some "." ∨ (split '/' r).head? = some ".." := by
  rw [head?_split_iff (by decide), head?_split_iff (by decide)]
  constructor
  · rintro (dot | up | dot | up)
    · exact .inl (.inl dot)
    · exact .inr (.inl up)
    · exact .inl (.inr dot)
    · exact .inr (.inr up)
  · rintro ((dot | dot) | up | up)
    · exact .inl dot
    · exact .inr (.inr (.inl dot))
    · exact .inr (.inl up)
    · exact .inr (.inr (.inr up))

theorem head?_withoutIndex (ss : List String) : (withoutIndex ss).head? = ss.head? := by
  rcases withoutIndex_cases ss with same | ⟨hne, heq⟩
  · rw [same]
  · conv_rhs => rw [heq]
    exact (List.head?_append_of_ne_nil _ hne).symm

/-- What spelled segments look like depends on the first one. -/
theorem looksRelative_spell_iff (hne : ss ≠ []) (hs : ∀ s ∈ ss, '/' ∉ s.toList) :
    LooksRelative (spell ss) ↔ ss.head? = some "." ∨ ss.head? = some ".." := by
  rw [looksRelative_iff, split_spell hne hs]

/-- Relative segments begin with a dot, a way up or a name. -/
theorem IsRelative.head_cases (h : IsRelative (s :: ss)) : s = "." ∨ s = ".." ∨ IsName s := by
  obtain ⟨lead, names, heq, hl, hn⟩ := h
  cases lead with
  | nil =>
    obtain rfl : s :: ss = names := heq
    exact .inr (.inr (hn s List.mem_cons_self))
  | cons t lead =>
    obtain ⟨rfl, -⟩ := List.cons.inj heq
    rcases hl with dot | up
    · exact .inl (List.cons.inj dot).1
    · exact .inr (.inl (up s List.mem_cons_self))

/-- Relative segments begin with a name only if this begins with a dot and they all lead down. -/
theorem relative_of_name (name : IsName s) (h : (relative home path file).head? = some s) :
    s.toList.head? = some '.' ∧
      place home path = directory home file ++ relative home path file := by
  have dot : beginsWithDot (between (directory home file) (place home path)) = true := by
    by_contra plain
    rw [relative_eq, if_neg plain] at h
    exact name.moves (Option.some.inj h).symm
  have same : relative home path file = between (directory home file) (place home path) := by
    rw [relative_eq, if_pos dot]
  rw [same] at h ⊢
  obtain ⟨ss, hss⟩ := List.head?_eq_some_iff.1 h
  refine ⟨by simpa [hss, beginsWithDot] using dot, ?_⟩
  rcases between_cases (directory home file) (place home path) with below | ⟨up, hup⟩
  · exact below
  · rw [hup] at h
    exact absurd (Option.some.inj h).symm name.descends

/-- A specifier whose path leads into no directory of packages looks relative, unless its module
lies below the directory of the file and the way down begins with a name that begins with a dot. -/
theorem ofPath_looksRelative_iff (hh : ∀ s ∈ home, IsName s) (given : path ≠ "")
    (outside : packageRoot ∉ between (directory home file) (place home path)) :
    ∃ r, ofPath home path file = .ok (some r) ∧
      (LooksRelative r ↔ ∀ s ss, place home path = directory home file ++ s :: ss →
        s.toList.head? ≠ some '.') := by
  have shape := (isRelative_relative hh path file).1
  have nonempty := withoutIndex_ne_nil (relative_ne_nil home path file)
  obtain ⟨s, ss, hs⟩ := List.exists_cons_of_ne_nil (relative_ne_nil home path file)
  refine ⟨spell (withoutIndex (relative home path file)), ?_, ?_⟩
  · rw [ofPath_eq given, require?_eq_some outside]
  rw [looksRelative_spell_iff nonempty fun s hs => (shape.withoutIndex.whole s hs).2,
    head?_withoutIndex, hs, List.head?_cons, Option.some.injEq, Option.some.injEq]
  constructor
  · rintro looks t ts below hidden
    have name : IsName t := isName_place hh path t (by simp [below])
    have dot : beginsWithDot (t :: ts) = true := by simpa [beginsWithDot] using hidden
    have down : relative home path file = t :: ts := by
      rw [relative_eq, below, between_below, if_pos dot]
    obtain ⟨rfl, rfl⟩ := List.cons.inj (hs.symm.trans down)
    exact looks.elim name.moves name.descends
  · intro plain
    rcases (hs ▸ shape : IsRelative (s :: ss)).head_cases with dot | up | name
    · exact .inl dot
    · exact .inr up
    · obtain ⟨hidden, down⟩ := relative_of_name name (by rw [hs]; rfl)
      rw [hs] at down
      exact absurd hidden (plain s ss down)

/-- A hidden directory that is not below the directory of the file. -/
theorem ofPath_config : (∀ s ∈ ([] : List String), IsName s) ∧ "/app/.config/index" ≠ "" ∧
    packageRoot ∉ between (directory [] "/app/src/main.ts") (place [] "/app/.config/index") ∧
    ofPath [] "/app/.config/index" "/app/src/main.ts" = .ok (some "../.config") ∧
    LooksRelative "../.config" := by
  have outside : packageRoot ∉
      between (directory [] "/app/src/main.ts") (place [] "/app/.config/index") := by
    decide +kernel
  have found : ofPath [] "/app/.config/index" "/app/src/main.ts" = .ok (some "../.config") := by
    rw [ofPath_eq (by decide)]
    exact congrArg Except.ok (by decide +kernel)
  have root := List.forall_mem_nil IsName
  refine ⟨root, by decide, outside, found, ?_⟩
  obtain ⟨r, hr, looks⟩ := ofPath_looksRelative_iff root (by decide) outside
  obtain rfl := Option.some.inj (Except.ok.inj (found.symm.trans hr))
  refine looks.2 fun s ss below => ?_
  have place : place [] "/app/.config/index" = ["app", ".config", "index"] := by decide +kernel
  have directory : directory [] "/app/src/main.ts" = ["app", "src"] := by decide +kernel
  rw [place, directory] at below
  simp at below

/-- A hidden directory below the directory of the file is taken for a package. -/
theorem ofPath_generated :
    packageRoot ∉ between (directory [] "/app/src/main.ts") (place [] "/app/src/.generated/user") ∧
    ofPath [] "/app/src/.generated/user" "/app/src/main.ts" = .ok (some ".generated/user") ∧
    ¬ LooksRelative ".generated/user" := by
  refine ⟨by decide +kernel, ?_, by decide +kernel⟩
  rw [ofPath_eq (by decide)]
  exact congrArg Except.ok (by decide +kernel)

end Specifier

end PropertyMetadata
