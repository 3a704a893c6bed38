import PropertyMetadata.Text.Pieces

/-! Paths of files as lists of segments below the root. Relative paths start at a home directory, a
backslash is read as a slash, and the walk along the segments of a path takes empty ones and `.` as
standing still and `..` as going up, which at the root goes nowhere. -/

namespace PropertyMetadata.Path

open Text

def slashed (s : String) : String := String.ofList (replaced '\\' '/' s.toList)

def written (path : String) : List String := split '/' (slashed path)

/-- Where the walk along segments leads from a place. -/
def walk : List String → List String → List String
  | place, [] => place
  | place, s :: ss =>
    if s = "" ∨ s = "." then walk place ss
    else if s = ".." then walk place.dropLast ss
    else walk (place ++ [s]) ss

/-- The place where a path starts: the root if it begins with a slash, else the home directory. -/
def origin (home : List String) : List String → List String
  | "" :: _ :: _ => []
  | _ => home

def place (home : List String) (path : String) : List String :=
  walk (origin home (written path)) (written path)

def directory (home : List String) (path : String) : List String :=
  walk (origin home (written path)) (written path).dropLast

/-- The number of segments that two places share at their beginnings. -/
def shared : List String → List String → Nat
  | a :: as, b :: bs => if a = b then shared as bs + 1 else 0
  | _, _ => 0

/-- The segments that lead from one place to another: up to what they share, then down. -/
def between (start goal : List String) : List String :=
  let k := shared start goal
  List.replicate (start.length - k) ".." ++ goal.drop k

theorem walk_append (p ss ts : List String) : walk p (ss ++ ts) = walk (walk p ss) ts := by
  induction ss generalizing p with
  | nil => rfl
  | cons s ss ih => simp only [List.cons_append, walk]; split <;> (try split) <;> exact ih _

end PropertyMetadata.Path
