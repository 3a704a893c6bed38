import PropertyMetadata.Proofs.Specifier.Places

/-! Relative specifiers. A specifier that does not lead into a directory of packages begins with a
dot or with a way up, and goes on with names only. Followed from the directory of its file it leads
to the module that it was made for, or to the directory whose index this module is. -/

namespace PropertyMetadata.Specifier

open Text PropertyMetadata.Path

variable {home segments ss ts : List String} {s path file : String}

/-- A dot or a way up, and then names. -/
def IsRelative (segments : List String) : Prop :=
  ∃ lead names, segments = lead ++ names ∧ (lead = ["."] ∨ ∀ s ∈ lead, s = "..") ∧
    ∀ s ∈ names, IsName s

namespace IsRelative

theorem of_up (n : Nat) (h : ∀ s ∈ ss, IsName s) : IsRelative (List.replicate n ".." ++ ss) :=
  ⟨_, ss, rfl, .inr fun _ => List.eq_of_mem_replicate, h⟩

theorem left (h : IsRelative (ss ++ ts)) : IsRelative ss := by
  obtain ⟨lead, names, heq, hl, hn⟩ := h
  rcases List.append_eq_append_iff.1 heq with ⟨more, rfl, -⟩ | ⟨more, rfl, rfl⟩
  · rcases hl with dot | up
    · rcases List.append_eq_singleton_iff.1 dot with ⟨rfl, -⟩ | ⟨rfl, -⟩
      · exact of_up 0 (List.forall_mem_nil _)
      · exact ⟨["."], [], rfl, .inl rfl, List.forall_mem_nil _⟩
    · exact ⟨ss, [], by simp, .inr (List.forall_mem_append.1 up).1, List.forall_mem_nil _⟩
  · exact ⟨lead, more, rfl, hl, (List.forall_mem_append.1 hn).1⟩

theorem whole (h : IsRelative segments) : ∀ s ∈ segments, s ≠ "" ∧ '/' ∉ s.toList := by
  obtain ⟨lead, names, rfl, hl, hn⟩ := h
  refine List.forall_mem_append.2
    ⟨fun s hs => ?_, fun s hs => ⟨(hn s hs).nonempty, (hn s hs).whole⟩⟩
  rcases hl with rfl | up
  · obtain rfl := List.mem_singleton.1 hs
    decide
  · obtain rfl := up s hs
    decide

end IsRelative

/-! ### The segments of a specifier -/

/-- The path to a module is the one between the places, with a dot before it unless it begins with
one. -/
theorem relative_eq (home : List String) (path file : String) :
    relative home path file =
      if beginsWithDot (between (directory home file) (place home path)) then
        between (directory home file) (place home path)
      else "." :: between (directory home file) (place home path) := by
  unfold relative
  generalize between (directory home file) (place home path) = steps
  cases steps with
  | nil => simp [beginsWithDot]
  | cons s steps => simp

theorem relative_ne_nil (home : List String) (path file : String) :
    relative home path file ≠ [] := by
  rw [relative_eq]
  split
  next dot =>
    intro hnil
    rw [hnil] at dot
    simp [beginsWithDot] at dot
  next => exact List.cons_ne_nil _ _

theorem mem_relative (h : s ∈ relative home path file) :
    s = "." ∨ s = ".." ∨ s ∈ place home path := by
  rw [relative_eq] at h
  split at h
  · exact .inr (mem_between h)
  · exact (List.mem_cons.1 h).imp_right mem_between

/-- Segments that lead to a module from the directory of a file are relative, since those that do
not begin with a dot are names alone. -/
theorem isRelative_relative (hh : ∀ s ∈ home, IsName s) (path file : String) :
    IsRelative (relative home path file) ∧
      walk (directory home file) (relative home path file) = place home path := by
  have goal := isName_place hh path
  have leads := walk_between goal (directory home file)
  obtain ⟨n, names, heq, hn⟩ := between_eq goal (directory home file)
  rw [relative_eq]
  split
  next => exact ⟨heq ▸ IsRelative.of_up n hn, leads⟩
  next name =>
    refine ⟨?_, by rw [walk, if_pos (.inr rfl), leads]⟩
    cases n with
    | zero => exact ⟨["."], names, by simp [heq], .inl rfl, hn⟩
    | succ n => simp [heq, List.replicate_succ, beginsWithDot] at name

theorem isName_indexSegment : IsName indexSegment :=
  ⟨by decide, by decide, by decide, by decide⟩

/-- At most a last segment is left out, and never the only one. -/
theorem withoutIndex_cases (segments : List String) :
    withoutIndex segments = segments ∨
      withoutIndex segments ≠ [] ∧ segments = withoutIndex segments ++ [indexSegment] := by
  unfold withoutIndex
  split
  next h =>
    obtain ⟨ss, rfl⟩ := List.getLast?_eq_some_iff.1 h.2
    refine .inr ⟨?_, by simp⟩
    rintro hnil
    simp_all
  next => exact .inl rfl

theorem withoutIndex_subset (ss : List String) : withoutIndex ss ⊆ ss := by
  unfold withoutIndex
  split
  · exact List.dropLast_subset ss
  · exact List.Subset.refl ss

theorem inPackage_subset (ss : List String) : inPackage ss ⊆ ss := by
  have inside : (ss.dropWhile (· ≠ packageRoot)).drop 1 ⊆ ss :=
    ((List.drop_sublist _ _).trans (List.dropWhile_sublist _)).subset
  simp only [inPackage]
  split
  · exact fun s hs => inside (List.drop_subset _ _ hs)
  · exact inside

/-- Followed from a place, segments without their index lead to where all of them lead, or to the
directory of the index. -/
theorem walk_withoutIndex (start segments : List String) :
    walk start (withoutIndex segments) = walk start segments ∨
      walk start segments = walk start (withoutIndex segments) ++ [indexSegment] := by
  rcases withoutIndex_cases segments with heq | ⟨-, heq⟩
  · exact .inl (by rw [heq])
  · refine .inr ?_
    have index := walk_names (List.forall_mem_singleton.2 isName_indexSegment)
    conv_lhs => rw [heq, walk_append, index]

theorem IsRelative.withoutIndex (h : IsRelative segments) :
    IsRelative (withoutIndex segments) := by
  rcases withoutIndex_cases segments with heq | ⟨-, heq⟩
  · rwa [heq]
  · exact (heq ▸ h).left

theorem withoutIndex_ne_nil (h : segments ≠ []) : withoutIndex segments ≠ [] := by
  rcases withoutIndex_cases segments with heq | ⟨hne, -⟩
  · rwa [heq]
  · exact hne

/-! ### The specifier as a text -/

theorem head?_ne_slash (h : "" ∉ split '/' s) : s.toList.head? ≠ some '/' := by
  intro slash
  obtain ⟨cs, hcs⟩ := List.head?_eq_some_iff.1 slash
  simp [split, hcs, pieces] at h

theorem require?_eq_some (outside : packageRoot ∉ between (directory home file) (place home path)) :
    require? home path file = some (spell (withoutIndex (relative home path file))) := by
  rw [require?, if_neg]
  rw [relative_eq]
  split
  · exact outside
  · exact List.not_mem_cons_of_ne_of_not_mem (by decide) outside

/-- A specifier whose path leads into no directory of packages still names its module: put behind
the directory of the file, it names the place of the module, or the place whose index the module
is. Behind a dot or a way up it consists of names. -/
theorem ofPath_relative (hh : ∀ s ∈ home, IsName s) (given : path ≠ "")
    (outside : packageRoot ∉ between (directory home file) (place home path)) :
    ∃ r, ofPath home path file = .ok (some r) ∧
      (named (behind (rooted (directory home file)) r) = place home path ∨
        place home path = named (behind (rooted (directory home file)) r) ++ [indexSegment]) ∧
      ∃ lead names, split '/' r = lead ++ names ∧ (lead = ["."] ∨ ∀ s ∈ lead, s = "..") ∧
        ∀ s ∈ names, IsName s := by
  obtain ⟨shape, leads⟩ := isRelative_relative hh path file
  have short := shape.withoutIndex
  have segments := split_spell (withoutIndex_ne_nil (relative_ne_nil home path file))
    fun s hs => (short.whole s hs).2
  refine ⟨spell (withoutIndex (relative home path file)), ?_, ?_, ?_⟩
  · rw [ofPath_eq given, require?_eq_some outside]
  · -- a specifier from the root would be put behind no directory
    have below : (spell (withoutIndex (relative home path file))).toList.head? ≠ some '/' := by
      apply head?_ne_slash
      rw [segments]
      exact fun empty => (short.whole "" empty).1 rfl
    rw [named_behind _ below, named_rooted (isName_directory hh file), segments, ← leads]
    exact walk_withoutIndex _ _
  · rw [segments]
    exact short

/-- From a directory below the home directory to the index of a directory below the root. -/
theorem ofPath_models :
    packageRoot ∉ between (directory ["app"] "dto\\user.ts") (place ["app"] "/lib//models/index") ∧
    ofPath ["app"] "/lib//models/index" "dto\\user.ts" = .ok (some "../../lib/models") ∧
    place ["app"] "/lib//models/index" =
      named (behind (rooted (directory ["app"] "dto\\user.ts")) "../../lib/models") ++
        [indexSegment] := by
  have home : ∀ s ∈ ["app"], IsName s :=
    List.forall_mem_singleton.2 ⟨by decide, by decide, by decide, by decide⟩
  have outside : packageRoot ∉
      between (directory ["app"] "dto\\user.ts") (place ["app"] "/lib//models/index") := by decide
  have found : ofPath ["app"] "/lib//models/index" "dto\\user.ts" =
      .ok (some "../../lib/models") := by rfl
  have other : named (behind (rooted (directory ["app"] "dto\\user.ts")) "../../lib/models") ≠
      place ["app"] "/lib//models/index" := by decide
  obtain ⟨r, hr, leads, -⟩ := ofPath_relative home (by decide) outside
  obtain rfl := Option.some.inj (Except.ok.inj (found.symm.trans hr))
  exact ⟨outside, found, leads.resolve_left other⟩

end PropertyMetadata.Specifier
