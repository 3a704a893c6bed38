import PropertyMetadata.Json.Shape
import PropertyMetadata.Text.Upper

/-! The flags of a symbol, and their names. A flag may be spelled in capitals with underscores or
with one capital for each word. -/

namespace PropertyMetadata

open Text

/-- A set of flags, one bit each. -/
structure Flags where
  bits : Nat
  deriving DecidableEq, Repr

namespace Flags

def none : Flags := ⟨0⟩
def enumMember : Flags := ⟨4⟩

def union (a b : Flags) : Flags := ⟨a.bits ||| b.bits⟩

def names : List (String × Flags) := [
  ("NONE", ⟨0⟩), ("VARIABLE", ⟨1⟩), ("PROPERTY", ⟨2⟩), ("ENUM_MEMBER", ⟨4⟩), ("FUNCTION", ⟨8⟩),
  ("CLASS", ⟨16⟩), ("INTERFACE", ⟨32⟩), ("ENUM", ⟨64⟩), ("TYPE_LITERAL", ⟨128⟩),
  ("TYPE_ALIAS", ⟨256⟩), ("ALIAS", ⟨512⟩)]

/-- An underscore before every ASCII capital but a leading one. -/
def worded : List Char → List Char
  | [] => []
  | c :: cs => c :: cs.flatMap fun d => if 'A' ≤ d ∧ d ≤ 'Z' then ['_', d] else [d]

/-- The capital spelling of a flag's name. -/
def spelling (name : String) : String :=
  if name = upper name then name else upper (String.ofList (worded name.toList))

def named? (name : String) : Option Flags := Json.lookup names (spelling name)

/-- The flag of a name, or the fault that no flag is spelled so. -/
def named (name : String) : Except Fault Flags :=
  match named? name with
  | some f => .ok f
  | Option.none => .error (.missingKey (.string (spelling name)))

/-- The flags of several names together. -/
def ofNames : List String → Except Fault Flags
  | [] => .ok none
  | n :: ns => do
    let f ← named n
    return f.union (← ofNames ns)

/-- The flag of a value, which has to be a name. -/
def ofName : Json → Except Fault Flags
  | .string s => named s
  | v => .error (.absent (.letters v))

/-- The flags of values that have to be names. -/
def ofItems : List Json → Except Fault Flags
  | [] => .ok none
  | x :: xs => do
    let f ← ofName x
    return f.union (← ofItems xs)

/-- The flags of a value: what counts as false has none. -/
def ofJson (x : Json) : Except Fault Flags :=
  if x.truthy then do ofItems (← x.members) else .ok none

/-- The names in a text, between commas and without blanks around. -/
def listed (s : String) : List String := ((split ',' s).map trim).filter fun n => !n.isEmpty

/-- The flags of a symbol's record: names in one text, or in a list. -/
def ofRecord : Json → Except Fault Flags
  | .string s => ofNames (listed s)
  | x => ofJson x

def allBits : Nat := 1023

def bitLength (n : Nat) : Nat := if n = 0 then 0 else n.log2 + 1

/-- The flags of a number. A negative number counts its bits down from the first power of two that
lies beyond all flags and beyond the number. -/
def ofInt (i : Int) : Flags :=
  if 0 ≤ i then ⟨i.toNat⟩
  else if -(allBits : Int) - 1 ≤ i then ⟨(allBits + 1 + i).toNat⟩
  else ⟨(Number.twoTo (bitLength i.natAbs) + i).toNat⟩

theorem ofItems_map_string (ns : List String) : ofItems (ns.map Json.string) = ofNames ns := by
  induction ns with
  | nil => rfl
  | cons n ns ih => simp [ofItems, ofNames, ofName, ih]

end Flags

end PropertyMetadata
