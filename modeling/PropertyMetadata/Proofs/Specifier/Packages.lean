import Mathlib.Data.List.Induction
import PropertyMetadata.Proofs.Specifier.Appearance

/-! Specifiers of packages. A module in a directory of packages is named by what comes behind this
directory, and so by every file alike that is not in there itself. A path that is the name of a
package from the start is taken for a file of that name in the home directory. So it is kept only by
chance: where the home directory holds packages itself, or where the name begins with a dot and the
file stands right there. -/

namespace PropertyMetadata

namespace Path

variable {start goal : List String} {s : String}

/-! ### Ways that part before their ends -/

/-- Where a place is not on the way to another one, they share the same with all that is below. -/
theorem shared_append (h : ¬ goal <+: start) (ss : List String) :
    shared start (goal ++ ss) = shared start goal ∧ shared start goal < goal.length := by
  induction goal generalizing start with
  | nil => exact absurd List.nil_prefix h
  | cons a goal ih =>
    cases start with
    | nil => simp [shared]
    | cons b start =>
      simp only [List.cons_append, shared, List.length_cons]
      split
      next same =>
        obtain ⟨below, less⟩ := ih fun within => h (List.cons_prefix_cons.2 ⟨same.symm, within⟩)
        exact ⟨by rw [below], Nat.succ_lt_succ less⟩
      next => exact ⟨rfl, Nat.succ_pos _⟩

/-- From outside of a place the way to what is below goes through the place. -/
theorem between_append (h : ¬ goal <+: start) (ss : List String) :
    between start (goal ++ ss) = between start goal ++ ss := by
  obtain ⟨same, less⟩ := shared_append h ss
  simp only [between, same, List.drop_append_of_le_length (Nat.le_of_lt less), List.append_assoc]

theorem between_concat (h : ¬ goal ++ [s] <+: start) :
    ∃ way, between start (goal ++ [s]) = way ++ [s] ∧ ∀ t ∈ way, t = ".." ∨ t ∈ goal := by
  have less := (shared_append h []).2
  rw [List.length_append, List.length_singleton] at less
  refine ⟨List.replicate (start.length - shared start (goal ++ [s])) ".." ++
    goal.drop (shared start (goal ++ [s])), ?_, fun t ht => ?_⟩
  · rw [between, List.drop_append_of_le_length (Nat.le_of_lt_succ less), List.append_assoc]
  · exact (List.mem_append.1 ht).imp List.eq_of_mem_replicate List.mem_of_mem_drop

/-- Where the way to a place leads through names, the place is not on the way to the start. -/
theorem not_prefix_of_mem_between (h : s ∈ between start goal) (hs : s ≠ "..") :
    ¬ goal <+: start := by
  rintro ⟨below, rfl⟩
  have up := between_append_left goal below []
  rw [List.append_nil] at up
  rw [up] at h
  exact (mem_between h).elim hs List.not_mem_nil

end Path

namespace Specifier

open Text PropertyMetadata.Path

variable {home above way inside rest segments as bs ss : List String}
  {path file file₁ file₂ r s : String}

/-! ### Names in a directory of packages -/

/-- The segments behind a directory of packages, without a directory of types right in it. -/
theorem inPackage_append (first : packageRoot ∉ way) (inside : List String) :
    inPackage (way ++ packageRoot :: inside) =
      if inside.head? = some typesRoot then inside.tail else inside := by
  have passed : ∀ s ∈ way, decide (s ≠ packageRoot) = true := fun s hs =>
    decide_eq_true fun same => first (same ▸ hs)
  have behind : (way ++ packageRoot :: inside).dropWhile (· ≠ packageRoot) =
      packageRoot :: inside := by
    rw [List.dropWhile_append_of_pos passed]
    simp
  rw [inPackage, behind]
  simp

/-- A module that lies in a directory of packages on the way from a file is named by the segments
behind it. -/
theorem require?_of_between
    (h : between (directory home file) (place home path) = way ++ packageRoot :: inside)
    (first : packageRoot ∉ way)
    (typed : rest = if inside.head? = some typesRoot then inside.tail else inside) :
    require? home path file =
      if rest = [] then none else some (spell (withoutIndex rest)) := by
  obtain ⟨way', heq, first'⟩ : ∃ way', relative home path file = way' ++ packageRoot :: inside ∧
      packageRoot ∉ way' := by
    rw [relative_eq, h]
    split
    · exact ⟨way, rfl, first⟩
    · exact ⟨"." :: way, rfl, List.not_mem_cons_of_ne_of_not_mem (by decide) first⟩
  rw [require?, if_pos (by simp [heq]), heq, inPackage_append first', ← typed]
  cases rest with
  | nil => rfl
  | cons s ss => rfl

theorem spell_eq_intercalate (ss : List String) : spell ss = "/".intercalate ss :=
  (intercalate_eq_joined '/' ss).symm

/-- A module in a directory of packages is named alike by every file that is not in there: by the
segments behind the first such directory, without a directory of types at their beginning and then
without an index at their end; there is no name if nothing remains. -/
theorem ofPath_dependency (place_eq : place home path = above ++ packageRoot :: inside)
    (first : packageRoot ∉ above)
    (typed : rest = if inside.head? = some typesRoot then inside.tail else inside)
    (outside₁ : ¬ above ++ [packageRoot] <+: directory home file₁)
    (outside₂ : ¬ above ++ [packageRoot] <+: directory home file₂) :
    ofPath home path file₁ = ofPath home path file₂ ∧
    (path ≠ "" → ofPath home path file₁ = .ok (if rest = [] then none else
      some ("/".intercalate (if 1 < rest.length ∧ rest.getLast? = some indexSegment then
        rest.dropLast else rest)))) := by
  have named {file : String} (outside : ¬ above ++ [packageRoot] <+: directory home file) :
      require? home path file =
        if rest = [] then none else some (spell (withoutIndex rest)) := by
    obtain ⟨way, hway, sub⟩ := between_concat outside
    have through : between (directory home file) (place home path) =
        way ++ packageRoot :: inside := by
      rw [place_eq, List.append_cons, between_append outside, hway, List.append_assoc,
        List.singleton_append]
    refine require?_of_between through (fun hmem => ?_) typed
    exact (sub packageRoot hmem).elim (by decide) first
  refine ⟨?_, fun given => ?_⟩
  · rw [ofPath, ofPath, named outside₁, named outside₂]
  · rw [ofPath_eq given, named outside₁, spell_eq_intercalate, withoutIndex]

/-- Packages of a package, with types: two files above it, one of them below the home directory. -/
theorem ofPath_nested :
    place ["srv"] "/app/node_modules/@types/a/node_modules/b/index" =
      ["app"] ++ packageRoot :: ["@types", "a", packageRoot, "b", indexSegment] ∧
    packageRoot ∉ ["app"] ∧
    ¬ ["app", packageRoot] <+: directory ["srv"] "/app/src/main.ts" ∧
    ¬ ["app", packageRoot] <+: directory ["srv"] "tools\\main.ts" ∧
    ofPath ["srv"] "/app/node_modules/@types/a/node_modules/b/index" "/app/src/main.ts" =
      ofPath ["srv"] "/app/node_modules/@types/a/node_modules/b/index" "tools\\main.ts" ∧
    ofPath ["srv"] "/app/node_modules/@types/a/node_modules/b/index" "/app/src/main.ts" =
      .ok (some "a/node_modules/b") := by
  have place_eq : place ["srv"] "/app/node_modules/@types/a/node_modules/b/index" =
      ["app"] ++ packageRoot :: ["@types", "a", packageRoot, "b", indexSegment] := by decide
  have outside₁ : ¬ ["app", packageRoot] <+: directory ["srv"] "/app/src/main.ts" := by decide
  have outside₂ : ¬ ["app", packageRoot] <+: directory ["srv"] "tools\\main.ts" := by decide
  obtain ⟨same, named⟩ := ofPath_dependency place_eq (by decide) rfl outside₁ outside₂
  refine ⟨place_eq, by decide, outside₁, outside₂, same, (named (by decide)).trans ?_⟩
  rfl

/-! ### Names of packages -/

/-- A path that names a package, or something in it: names alone, none of which is a directory of
packages. -/
structure IsPackagePath (path : String) : Prop where
  names : ∀ s ∈ split '/' path, IsName s
  outside : packageRoot ∉ split '/' path
  forward : '\\' ∉ path.toList

instance (path : String) : Decidable (IsPackagePath path) :=
  decidable_of_iff
    ((∀ s ∈ split '/' path, IsName s) ∧ packageRoot ∉ split '/' path ∧ '\\' ∉ path.toList)
    ⟨fun ⟨h₁, h₂, h₃⟩ => ⟨h₁, h₂, h₃⟩, fun ⟨h₁, h₂, h₃⟩ => ⟨h₁, h₂, h₃⟩⟩

theorem split_ne_nil (s : String) : split '/' s ≠ [] := by
  simpa [split] using pieces_ne_nil '/' s.toList

theorem split_inj {s t : String} : split '/' s = split '/' t ↔ s = t :=
  ⟨fun h => by rw [← spell_split s, h, spell_split], fun h => by rw [h]⟩

/-- The name of a package is taken for that of a file in the home directory. -/
theorem IsPackagePath.place_eq (hp : IsPackagePath path) (home : List String) :
    place home path = home ++ split '/' path := by
  have folded : written path = split '/' path := by
    have kept : replaced '\\' '/' path.toList = path.toList := by
      refine (List.map_congr_left fun c hc => if_neg ?_).trans (List.map_id' _)
      rintro rfl
      exact hp.forward hc
    rw [written, slashed, kept, String.ofList_toList]
  have start : origin home (split '/' path) = home := by
    unfold origin
    split
    next heq => exact absurd rfl (hp.names "" (heq ▸ List.mem_cons_self)).nonempty
    next => rfl
  rw [place, folded, start, walk_names hp.names]

theorem beginsWithDot_split (s : String) :
    beginsWithDot (split '/' s) = (s.toList.head? == some '.') := by
  rw [split]
  cases hs : s.toList with
  | nil => rfl
  | cons c cs =>
    simp only [pieces]
    split
    next slash => simp [beginsWithDot, slash]
    next =>
      split <;> simp [beginsWithDot]

/-- A specifier is a path as it is, or the path without an index behind other segments. -/
def Keeps (path r : String) : Prop := r = path ∨ path = r ++ "/" ++ indexSegment

instance (path r : String) : Decidable (Keeps path r) :=
  inferInstanceAs (Decidable (r = path ∨ path = r ++ "/" ++ indexSegment))

theorem keeps_spell_iff (hne : ss ≠ []) (hs : ∀ s ∈ ss, '/' ∉ s.toList) :
    Keeps path (spell ss) ↔ split '/' path = ss ∨ split '/' path = ss ++ [indexSegment] := by
  have alone : split '/' indexSegment = [indexSegment] := by decide
  rw [Keeps, ← split_inj, ← split_inj, split_slash, split_spell hne hs, alone, eq_comm]

theorem withoutIndex_concat (hne : ss ≠ []) : withoutIndex (ss ++ [indexSegment]) = ss := by
  have long : 1 < (ss ++ [indexSegment]).length := by
    simpa [List.length_pos_iff] using hne
  rw [withoutIndex, if_pos ⟨long, by simp⟩, List.dropLast_concat]

/-- Segments are those of a path, with an index left out or put behind them at most, if without
their own index they are the path's, or the path's without the last one. -/
theorem eq_of_withoutIndex
    (h : ss = withoutIndex segments ∨ ss = withoutIndex segments ++ [indexSegment]) :
    segments = ss ∨ segments = ss ++ [indexSegment] ∨ ss = segments ++ [indexSegment] := by
  rcases withoutIndex_cases segments with same | ⟨-, heq⟩
  · rw [same] at h
    exact h.imp Eq.symm .inr
  · rcases h with h | h
    · exact .inr (.inl (h ▸ heq))
    · exact .inl (heq.trans h.symm)

theorem withoutIndex_of_eq (hne : ss ≠ [])
    (h : segments = ss ∨ segments = ss ++ [indexSegment]) :
    ss = withoutIndex segments ∨ ss = withoutIndex segments ++ [indexSegment] := by
  rcases h with rfl | rfl
  · exact (withoutIndex_cases segments).imp Eq.symm And.right
  · exact .inl (withoutIndex_concat hne).symm

/-- A list that is found again one place before its end is one thing over and over. -/
theorem eq_of_append_concat (h : as ++ ss = bs ++ (ss ++ [s])) : ∀ t ∈ ss, t = s := by
  induction ss using List.reverseRecOn with
  | nil => exact List.forall_mem_nil _
  | append_singleton ss t ih =>
    have ends : (as ++ ss) ++ [t] = (bs ++ (ss ++ [t])) ++ [s] := by simpa using h
    obtain ⟨rest, last⟩ := List.append_inj' ends rfl
    obtain rfl := List.singleton_inj.1 last
    exact List.forall_mem_append.2 ⟨ih rest, List.forall_mem_singleton.2 rfl⟩

theorem types_ne_concat (ss : List String) : typesRoot :: ss ≠ ss ++ [indexSegment] := by
  intro h
  have again : [typesRoot] ++ ss = [] ++ (ss ++ [indexSegment]) := h
  have all := eq_of_append_concat again
  cases ss with
  | nil => exact absurd (List.singleton_inj.1 h) (by decide)
  | cons s ss =>
    obtain ⟨rfl, -⟩ := List.cons.inj h
    exact absurd (all _ List.mem_cons_self) (by decide)

/-- The end of what comes behind a directory of packages is never what remains and an index. -/
theorem ne_concat_of_typed (typed : rest = if (inside ++ ss).head? = some typesRoot then
      (inside ++ ss).tail else inside ++ ss) : ss ≠ rest ++ [indexSegment] := by
  intro heq
  have lengths := congrArg List.length heq
  rw [List.length_append, List.length_singleton] at lengths
  cases inside with
  | nil =>
    rw [List.nil_append] at typed
    split at typed
    next types =>
      obtain ⟨behind, hb⟩ := List.head?_eq_some_iff.1 types
      rw [hb, List.tail_cons] at typed
      exact types_ne_concat behind (by rw [← hb, heq, typed])
    next => simp [typed] at lengths
  | cons s inside =>
    split at typed <;> simp [typed] at lengths <;> omega

/-! ### Names of packages in a home directory -/

/-- No directory of packages lies on the way to the name of a package if none lies on the way to the
home directory. -/
theorem IsPackagePath.not_mem_between (hp : IsPackagePath path)
    (outside : packageRoot ∉ between (directory home file) home) :
    packageRoot ∉ between (directory home file) (place home path) := by
  rw [hp.place_eq]
  by_cases within : home <+: directory home file
  · obtain ⟨below, hb⟩ := within
    rw [← hb, between_append_left]
    exact fun hmem => (mem_between hmem).elim (by decide) hp.outside
  · rw [between_append within]
    exact fun hmem => (List.mem_append.1 hmem).elim outside hp.outside

/-- Relative segments that are the name of a package, up to an index, are those of a file in the
home directory, and the name begins with a dot. -/
theorem IsPackagePath.stands_of_relative (hp : IsPackagePath path)
    (h : relative home path file = split '/' path ∨
      relative home path file = split '/' path ++ [indexSegment] ∨
      split '/' path = relative home path file ++ [indexSegment]) :
    directory home file = home ∧ beginsWithDot (split '/' path) = true := by
  obtain ⟨s, ss, hs⟩ := List.exists_cons_of_ne_nil (split_ne_nil path)
  have name : IsName s := hp.names s (by simp [hs])
  have heads : (relative home path file).head? = some s := by
    rcases h with heq | heq | heq
    · rw [heq, hs]
      rfl
    · rw [heq, hs]
      rfl
    · rw [← List.head?_append_of_ne_nil _ (relative_ne_nil home path file), ← heq, hs]
      rfl
  obtain ⟨hidden, down⟩ := relative_of_name name heads
  rw [hp.place_eq] at down
  have other : s ≠ indexSegment := by
    rintro rfl
    exact absurd hidden (by decide)
  -- the name is the whole way down, as the first of its segments is no index
  rcases h with heq | heq | heq
  · rw [heq] at down
    refine ⟨(List.append_cancel_right down).symm, ?_⟩
    simpa [hs, beginsWithDot] using hidden
  · rw [heq] at down
    exact absurd (eq_of_append_concat down s (by simp [hs])) other
  · rw [heq] at down
    exact absurd (eq_of_append_concat down.symm s (List.mem_of_mem_head? heads)) other

/-- Where no directory of packages is entered on the way to the home directory, the name of a
package is kept if the file stands in the home directory and the name begins with a dot. -/
theorem IsPackagePath.keeps_outside_iff (hp : IsPackagePath path) (hh : ∀ s ∈ home, IsName s)
    (outside : packageRoot ∉ between (directory home file) home) :
    ∃ r, require? home path file = some r ∧
      (Keeps path r ↔ directory home file = home ∧ path.toList.head? = some '.') := by
  have short := (isRelative_relative hh path file).1.withoutIndex
  have nonempty := withoutIndex_ne_nil (relative_ne_nil home path file)
  have hidden_iff : path.toList.head? = some '.' ↔ beginsWithDot (split '/' path) = true := by
    rw [beginsWithDot_split, beq_iff_eq]
  refine ⟨_, require?_eq_some (hp.not_mem_between outside), ?_⟩
  rw [keeps_spell_iff nonempty fun s hs => (short.whole s hs).2, hidden_iff]
  constructor
  · exact fun kept => hp.stands_of_relative (eq_of_withoutIndex kept)
  · rintro ⟨stands, hidden⟩
    have same : relative home path file = split '/' path := by
      rw [relative_eq, hp.place_eq, stands, between_below, if_pos hidden]
    exact withoutIndex_of_eq (split_ne_nil path) (.inl same)

/-- Where a directory of packages is entered on the way to the home directory, the name of a package
is put behind what remains of this way. -/
theorem IsPackagePath.keeps_inside_iff (hp : IsPackagePath path) (hh : ∀ s ∈ home, IsName s)
    (through : between (directory home file) home = way ++ packageRoot :: inside)
    (first : packageRoot ∉ way)
    (typed : rest = if (inside ++ split '/' path).head? = some typesRoot then
      (inside ++ split '/' path).tail else inside ++ split '/' path) :
    (∃ r, require? home path file = some r ∧ Keeps path r) ↔
      rest = split '/' path ∨ rest = split '/' path ++ [indexSegment] := by
  have apart : ¬ home <+: directory home file :=
    not_prefix_of_mem_between (by rw [through]; simp) (by decide : packageRoot ≠ "..")
  have longer : between (directory home file) (place home path) =
      way ++ packageRoot :: (inside ++ split '/' path) := by
    rw [hp.place_eq, between_append apart, through, List.append_assoc, List.cons_append]
  rw [require?_of_between longer first typed]
  by_cases none : rest = []
  · subst none
    refine iff_of_false (by simp) (not_or.2 ⟨(split_ne_nil path).symm, ?_⟩)
    simp
  have sub : rest ⊆ inside ++ split '/' path := by
    rw [typed]
    split
    · exact (List.tail_sublist _).subset
    · exact List.Subset.refl _
  have whole : ∀ s ∈ withoutIndex rest, '/' ∉ s.toList := by
    intro s hs
    rcases List.mem_append.1 (sub (withoutIndex_subset rest hs)) with hin | hpath
    · have on : s ∈ between (directory home file) home :=
        through ▸ List.mem_append_right _ (List.mem_cons_of_mem _ hin)
      rcases mem_between on with rfl | hhome
      · decide
      · exact (hh s hhome).whole
    · exact (hp.names s hpath).whole
  rw [if_neg none]
  simp only [Option.some.injEq, exists_eq_left', keeps_spell_iff (withoutIndex_ne_nil none) whole]
  constructor
  · intro kept
    exact (eq_of_withoutIndex kept).imp_right fun h => h.resolve_right (ne_concat_of_typed typed)
  · exact withoutIndex_of_eq (split_ne_nil path)

/-- The name of a package is kept just where the home directory holds packages, or the file stands
in the home directory and the name begins with a dot. What counts of the home directory are the
segments behind the first directory of packages that is entered on the way to it: with the name
behind them, and without a directory of types at their beginning, they have to be the name again,
or the name with an index. -/
theorem ofPath_package_iff (hh : ∀ s ∈ home, IsName s) (hp : IsPackagePath path) (file : String) :
    ∃ result, ofPath home path file = .ok result ∧
      (packageRoot ∉ between (directory home file) home →
        ((∃ r, result = some r ∧ Keeps path r) ↔
          directory home file = home ∧ path.toList.head? = some '.')) ∧
      ∀ way inside rest, between (directory home file) home = way ++ packageRoot :: inside →
        packageRoot ∉ way →
        (rest = if (inside ++ split '/' path).head? = some typesRoot then
          (inside ++ split '/' path).tail else inside ++ split '/' path) →
        ((∃ r, result = some r ∧ Keeps path r) ↔
          rest = split '/' path ∨ rest = split '/' path ++ [indexSegment]) := by
  have given : path ≠ "" := by
    rintro rfl
    exact (hp.names "" (by decide)).nonempty rfl
  refine ⟨_, ofPath_eq given home file, fun outside => ?_,
    fun way inside rest through first typed => hp.keeps_inside_iff hh through first typed⟩
  obtain ⟨r, hr, kept⟩ := hp.keeps_outside_iff hh outside
  simp only [hr, Option.some.injEq, exists_eq_left', kept]

/-- A home directory that holds packages. -/
theorem ofPath_installed : (∀ s ∈ ["app", packageRoot], IsName s) ∧ IsPackagePath "lodash/fp" ∧
    ofPath ["app", packageRoot] "lodash/fp" "/app/src/main.ts" = .ok (some "lodash/fp") ∧
    Keeps "lodash/fp" "lodash/fp" := by
  have home : ∀ s ∈ ["app", packageRoot], IsName s := by decide
  have package : IsPackagePath "lodash/fp" := by decide
  have found : ofPath ["app", packageRoot] "lodash/fp" "/app/src/main.ts" =
      .ok (some "lodash/fp") := rfl
  refine ⟨home, package, found, ?_⟩
  obtain ⟨result, hr, -, inside⟩ := ofPath_package_iff home package "/app/src/main.ts"
  obtain rfl := Except.ok.inj (found.symm.trans hr)
  have kept := inside [".."] [] ["lodash", "fp"] (by decide) (by decide) (by decide)
  obtain ⟨r, same, keeps⟩ := kept.2 (.inl (by decide))
  obtain rfl := Option.some.inj same
  exact keeps

/-- A name that is not kept, and becomes another path in each home directory. -/
theorem ofPath_lodash : IsPackagePath "lodash" ∧
    ofPath [] "lodash" "/app/src/main.ts" = .ok (some "../../lodash") ∧
    ¬ Keeps "lodash" "../../lodash" ∧
    ofPath ["srv"] "lodash" "/app/src/main.ts" = .ok (some "../../srv/lodash") :=
  ⟨by decide, rfl, by decide, rfl⟩

end Specifier

end PropertyMetadata
