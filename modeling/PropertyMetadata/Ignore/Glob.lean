import PropertyMetadata.Fault

/-! Globs: patterns for one segment of a path. A star stands for any characters but the slash, a
question mark for one, brackets for one of a set, and a backslash takes the next character as it
is. -/

namespace PropertyMetadata.Ignore

/-- One part of a glob. -/
inductive Glob where
  | literal (c : Char)
  | any
  | run
  | oneOf (negated : Bool) (ranges : List (Char × Char))
  deriving DecidableEq, Repr

namespace Glob

/-- Characters that are escaped where a glob is spelled out. -/
def isSpecial (c : Char) : Bool := "()[]\x7b\x7d?*+-|^$\\.&~# \t\n\r\x0b\x0c".toList.contains c

/-- The number of characters that a character of a set is spelled with. -/
def memberWidth (c : Char) : Nat := if c = '\\' then 2 else 1

/-- The number of characters that a part is spelled with; places in messages count them. -/
def width : Glob → Nat
  | literal c => if isSpecial c then 2 else 1
  | any => 4
  | run => 5
  | oneOf negated ranges =>
    let range (r : Char × Char) : Nat :=
      if r.1 = r.2 then memberWidth r.1 else memberWidth r.1 + 1 + memberWidth r.2
    ranges.foldl (fun n r => n + range r) (if negated then 3 else 2)

def widths (gs : List Glob) : Nat := gs.foldl (fun n g => n + g.width) 0

/-- The ranges of a set; a hyphen between two characters makes one, which must not be empty. -/
def ranges (place : Nat) : List Char → Except Fault (List (Char × Char))
  | low :: '-' :: high :: cs =>
    if high < low then .error (.badRange low high place)
    else do return (low, high) :: (← ranges (place + memberWidth low + 1 + memberWidth high) cs)
  | c :: cs => do return (c, c) :: (← ranges (place + memberWidth c) cs)
  | [] => .ok []

/-- The set behind an opening bracket, and what follows it; none if the set is not closed. A closing
bracket at the beginning is a member. -/
def set? (cs : List Char) : Option (Bool × List Char × List Char) :=
  let (negated, cs) := match cs with
    | '!' :: cs | '^' :: cs => (true, cs)
    | cs => (false, cs)
  let (first, cs) := match cs with
    | ']' :: cs => ([']'], cs)
    | cs => ([], cs)
  match cs.dropWhile (· ≠ ']') with
  | _ :: rest => some (negated, first ++ cs.takeWhile (· ≠ ']'), rest)
  | [] => none

/-- The parts of a glob at a place; none if its last character is to be taken as it is but there is
no character. -/
def parse (place : Nat) : Nat → List Char → Except Fault (Option (List Glob))
  | 0, _ | _, [] => .ok (some [])
  | fuel + 1, c :: cs =>
    let followedBy (g : Glob) (rest : List Char) : Except Fault (Option (List Glob)) := do
      return (← parse (place + g.width) fuel rest).map (g :: ·)
    if c = '\\' then
      match cs with
      | [] => .ok none
      | d :: rest => followedBy (literal d) rest
    else if c = '*' then followedBy run cs
    else if c = '?' then followedBy any cs
    else if c = '[' then
      match set? cs with
      | none => followedBy (literal '[') cs
      | some (negated, members, rest) => do
        let rs ← ranges (place + if negated then 2 else 1) members
        followedBy (oneOf negated rs) rest
    else followedBy (literal c) cs

/-- The glob of a segment at a place. -/
def ofSegment (place : Nat) (segment : String) : Except Fault (Option (List Glob)) :=
  parse place (segment.toList.length + 1) segment.toList

def inRanges (rs : List (Char × Char)) (c : Char) : Bool := rs.any fun r => r.1 ≤ c && c ≤ r.2

/-- What may be left of a text after characters that are no slashes. -/
def restsOfRun : List Char → List (List Char)
  | [] => [[]]
  | c :: cs => (c :: cs) :: if c = '/' then [] else restsOfRun cs

/-- What may be left of a text after a part. A negated set may stand for a slash. -/
def rests (g : Glob) (cs : List Char) : List (List Char) :=
  match g, cs with
  | run, cs => restsOfRun cs
  | _, [] => []
  | literal d, c :: cs => if c = d then [cs] else []
  | any, c :: cs => if c = '/' then [] else [cs]
  | oneOf negated rs, c :: cs => if inRanges rs c != negated then [cs] else []

end Glob

end PropertyMetadata.Ignore
