import Mathlib.Data.List.Basic
import PropertyMetadata.Specifier

/-! Places and the texts that name them. Every place that a path names is made of names alone, and
the segments between two places lead from the one to the other. A path that is put behind a
directory names the place to which its segments lead from there. -/

namespace PropertyMetadata.Path

open Text

variable {home place start goal ss : List String} {s directory path : String}

/-- A segment that names something in a directory. -/
structure IsName (s : String) : Prop where
  nonempty : s ≠ ""
  moves : s ≠ "."
  descends : s ≠ ".."
  whole : '/' ∉ s.toList

instance (s : String) : Decidable (IsName s) :=
  decidable_of_iff (s ≠ "" ∧ s ≠ "." ∧ s ≠ ".." ∧ '/' ∉ s.toList)
    ⟨fun ⟨h₁, h₂, h₃, h₄⟩ => ⟨h₁, h₂, h₃, h₄⟩, fun ⟨h₁, h₂, h₃, h₄⟩ => ⟨h₁, h₂, h₃, h₄⟩⟩

/-! ### Walking -/

theorem walk_names (h : ∀ s ∈ ss, IsName s) (place : List String) :
    walk place ss = place ++ ss := by
  induction ss generalizing place with
  | nil => simp [walk]
  | cons s ss ih =>
    obtain ⟨hs, hss⟩ := List.forall_mem_cons.1 h
    simp [walk, hs.nonempty, hs.moves, hs.descends, ih hss]

theorem walk_up (place : List String) (n : Nat) :
    walk place (List.replicate n "..") = place.take (place.length - n) := by
  induction n generalizing place with
  | zero => simp [walk]
  | succ n ih =>
    have up : walk place (List.replicate (n + 1) "..") =
        walk place.dropLast (List.replicate n "..") := by
      simp [List.replicate_succ, walk]
    rw [up, ih, List.dropLast_eq_take, List.take_take, List.length_take]
    congr 1
    omega

/-- A walk adds segments to a place, but none of those that move on it. -/
theorem forall_mem_walk {P : String → Prop} (hp : ∀ s ∈ place, P s)
    (hs : ∀ s ∈ ss, s ≠ "" → s ≠ "." → s ≠ ".." → P s) : ∀ s ∈ walk place ss, P s := by
  induction ss generalizing place with
  | nil => exact hp
  | cons s ss ih =>
    obtain ⟨added, rest⟩ := List.forall_mem_cons.1 hs
    simp only [walk]
    split
    next => exact ih hp rest
    next still =>
      split
      next => exact ih (fun t ht => hp t (List.dropLast_subset place ht)) rest
      next up =>
        rw [not_or] at still
        refine ih (List.forall_mem_append.2 ⟨hp, ?_⟩) rest
        exact List.forall_mem_singleton.2 (added still.1 still.2 up)

theorem isName_walk (hp : ∀ s ∈ place, IsName s) (hs : ∀ s ∈ ss, '/' ∉ s.toList) :
    ∀ s ∈ walk place ss, IsName s :=
  forall_mem_walk hp fun s hmem nonempty moves descends =>
    ⟨nonempty, moves, descends, hs s hmem⟩

theorem forall_mem_origin {P : String → Prop} (hh : ∀ s ∈ home, P s) (ss : List String) :
    ∀ s ∈ origin home ss, P s := by
  unfold origin
  split
  · exact List.forall_mem_nil _
  · exact hh

theorem isName_place (hh : ∀ s ∈ home, IsName s) (path : String) :
    ∀ s ∈ Path.place home path, IsName s :=
  isName_walk (forall_mem_origin hh _) fun _ hs => not_mem_of_mem_split hs

theorem isName_directory (hh : ∀ s ∈ home, IsName s) (path : String) :
    ∀ s ∈ Path.directory home path, IsName s :=
  isName_walk (forall_mem_origin hh _) fun _ hs => not_mem_of_mem_split (List.dropLast_subset _ hs)

/-! ### From one place to another -/

theorem take_shared (start goal : List String) :
    start.take (shared start goal) = goal.take (shared start goal) := by
  induction start generalizing goal with
  | nil => simp [shared]
  | cons a start ih =>
    cases goal with
    | nil => simp [shared]
    | cons b goal =>
      simp only [shared]
      split
      next hab => simp [hab, ih goal]
      next => simp

theorem shared_le (start goal : List String) : shared start goal ≤ start.length := by
  induction start generalizing goal with
  | nil => simp [shared]
  | cons a start ih =>
    cases goal with
    | nil => simp [shared]
    | cons b goal =>
      simp only [shared]
      split
      next => simpa using ih goal
      next => simp

/-- What leads from one place to another is a way up, and then names. -/
theorem between_eq (hg : ∀ s ∈ goal, IsName s) (start : List String) :
    ∃ n names, between start goal = List.replicate n ".." ++ names ∧ ∀ s ∈ names, IsName s :=
  ⟨_, _, rfl, fun s hs => hg s (List.mem_of_mem_drop hs)⟩

theorem mem_between (h : s ∈ between start goal) : s = ".." ∨ s ∈ goal := by
  rcases List.mem_append.1 h with up | name
  · exact .inl (List.eq_of_mem_replicate up)
  · exact .inr (List.mem_of_mem_drop name)

theorem walk_between (hg : ∀ s ∈ goal, IsName s) (start : List String) :
    walk start (between start goal) = goal := by
  have hle := shared_le start goal
  have down := walk_names fun s hs => hg s (List.mem_of_mem_drop (i := shared start goal) hs)
  calc walk start (between start goal)
      = start.take (start.length - (start.length - shared start goal)) ++
          goal.drop (shared start goal) := by rw [between, walk_append, walk_up, down]
    _ = goal.take (shared start goal) ++ goal.drop (shared start goal) := by
        rw [Nat.sub_sub_self hle, take_shared]
    _ = goal := List.take_append_drop _ _

/-! ### Paths as texts -/

/-- The path of a place from the root. -/
def rooted (place : List String) : String := "/" ++ Specifier.spell place

def behind (directory path : String) : String :=
  if path.toList.head? = some '/' then path
  else if directory = "" ∨ directory.toList.getLast? = some '/' then directory ++ path
  else directory ++ "/" ++ path

/-- The place that a path from the root names, however many slashes it begins with. -/
def named (path : String) : List String := walk [] (split '/' path)

theorem split_slash (s t : String) : split '/' (s ++ "/" ++ t) = split '/' s ++ split '/' t :=
  split_append '/' s t

theorem split_spell (hne : ss ≠ []) (h : ∀ s ∈ ss, '/' ∉ s.toList) :
    split '/' (Specifier.spell ss) = ss :=
  split_joined hne h

theorem named_rooted (h : ∀ s ∈ place, IsName s) : named (rooted place) = place := by
  have root : split '/' (rooted place) = "" :: split '/' (Specifier.spell place) := by
    have := split_slash "" (Specifier.spell place)
    rwa [String.empty_append] at this
  rw [named, root, walk, if_pos (.inl rfl)]
  by_cases hne : place = []
  · subst hne
    rfl
  · rw [split_spell hne fun s hs => (h s hs).whole, walk_names h, List.nil_append]

/-- A path that does not begin at the root leads on from the directory before it. A slash at the
end of the directory adds a segment that stands still. -/
theorem named_behind (directory : String) (h : path.toList.head? ≠ some '/') :
    named (behind directory path) = walk (named directory) (split '/' path) := by
  rw [behind, if_neg h]
  split
  next ends =>
    rcases ends with rfl | ends
    · simp [named, split, pieces, walk]
    · obtain ⟨cs, hcs⟩ := List.getLast?_eq_some_iff.1 ends
      obtain rfl : directory = String.ofList cs ++ "/" := by
        rw [← String.toList_inj]
        simpa using hcs
      have alone := split_slash (String.ofList cs) ""
      rw [String.append_empty] at alone
      rw [named, named, split_slash, alone, walk_append, walk_append]
      simp [split, pieces, walk]
  next => rw [named, named, split_slash, walk_append]

end PropertyMetadata.Path
