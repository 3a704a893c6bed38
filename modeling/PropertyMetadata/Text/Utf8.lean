import PropertyMetadata.Text.Quoted

/-! Text as bytes. A sequence of bytes is read by a machine that takes one byte at a time and knows
how many more belong to the character that has begun, and between which bounds the next one lies.
Where a sequence breaks its rules, the longest part that could still have become a character is
broken as a whole, and the byte that broke it begins anew. -/

namespace PropertyMetadata.Text.Utf8

/-- Where the machine stands: between characters, or inside one, of which a number of bytes is
missing, the next between two bounds, and the value of the earlier ones is known. -/
inductive State where
  | between
  | inside (missing : Nat) (low high : Nat) (value : Nat)
  deriving DecidableEq, Repr

/-- What a byte between characters comes to: a character, the beginning of one, or nothing that
begins a character. -/
inductive Start where
  | whole (c : Char)
  | lead (s : State)
  | broken

/-- The beginning of a character. The bounds of the second byte keep out spellings that are too
long, surrogates, and what lies beyond the last code point. -/
def start (b : Nat) : Start :=
  if b < 0x80 then .whole (Char.ofNat b)
  else if b < 0xc2 then .broken
  else if b < 0xe0 then .lead (.inside 1 0x80 0xbf (b - 0xc0))
  else if b = 0xe0 then .lead (.inside 2 0xa0 0xbf 0)
  else if b = 0xed then .lead (.inside 2 0x80 0x9f 13)
  else if b < 0xf0 then .lead (.inside 2 0x80 0xbf (b - 0xe0))
  else if b = 0xf0 then .lead (.inside 3 0x90 0xbf 0)
  else if b < 0xf4 then .lead (.inside 3 0x80 0xbf (b - 0xf0))
  else if b = 0xf4 then .lead (.inside 3 0x80 0x8f 4)
  else .broken

/-- The character that stands for bytes that are none. -/
def replacement : Char := '\ufffd'

/-- The text that a byte between characters completes, and where the machine stands then. -/
def begin (b : Nat) : List Char × State :=
  match start b with
  | .whole c => ([c], .between)
  | .lead s => ([], s)
  | .broken => ([replacement], .between)

/-- The text that a byte completes, and where the machine stands then. -/
def step (s : State) (b : Nat) : List Char × State :=
  match s with
  | .between => begin b
  | .inside missing low high value =>
    if low ≤ b ∧ b ≤ high then
      let value := value * 64 + (b - 0x80)
      if missing ≤ 1 then ([Char.ofNat value], .between)
      else ([], .inside (missing - 1) 0x80 0xbf value)
    else
      let (cs, s) := begin b
      (replacement :: cs, s)

/-- The text of bytes from a state on; a character that is not complete at the end is broken. -/
def decodeFrom : State → List UInt8 → List Char
  | .between, [] => []
  | .inside .., [] => [replacement]
  | s, b :: bs =>
    let (cs, s) := step s b.toNat
    cs ++ decodeFrom s bs

/-- The text of bytes, with a replacement for each broken part. -/
def decode (bs : List UInt8) : String := String.ofList (decodeFrom .between bs)

/-- Why bytes are no text. -/
inductive Problem where
  | badStart | badContinuation | cutShort
  deriving DecidableEq, Repr

def Problem.text : Problem → String
  | badStart => "invalid start byte"
  | badContinuation => "invalid continuation byte"
  | cutShort => "unexpected end of data"

/-- A broken part: its place, its bytes, and what is wrong with it. -/
structure Malformed where
  position : Nat
  bytes : List UInt8
  problem : Problem
  deriving DecidableEq, Repr

def Malformed.message (m : Malformed) : String :=
  match m.bytes with
  | [b] =>
    let byte := String.ofList (hexDigits 2 b.toNat)
    s!"'utf-8' codec can't decode byte 0x{byte} in position {m.position}: " ++ m.problem.text
  | bs =>
    let last := m.position + bs.length - 1
    s!"'utf-8' codec can't decode bytes in position {m.position}-{last}: " ++ m.problem.text

/-- The first broken part; `begun` are the bytes of the character that has begun, and `position`
is the place of the first of them. -/
def firstBroken (position : Nat) (begun : List UInt8) : State → List UInt8 → Option Malformed
  | .between, [] => none
  | .inside .., [] => some ⟨position, begun, .cutShort⟩
  | .between, b :: bs =>
    match start b.toNat with
    | .whole _ => firstBroken (position + 1) [] .between bs
    | .lead s => firstBroken position [b] s bs
    | .broken => some ⟨position, [b], .badStart⟩
  | .inside missing low high value, b :: bs =>
    if low ≤ b.toNat ∧ b.toNat ≤ high then
      if missing ≤ 1 then firstBroken (position + begun.length + 1) [] .between bs
      else firstBroken position (begun ++ [b])
        (.inside (missing - 1) 0x80 0xbf (value * 64 + (b.toNat - 0x80))) bs
    else some ⟨position, begun, .badContinuation⟩

/-- The text of bytes, if no part is broken. -/
def decode? (bs : List UInt8) : Except Malformed String :=
  match firstBroken 0 [] .between bs with
  | none => .ok (decode bs)
  | some m => .error m

def encode (s : String) : List UInt8 := s.toUTF8.toList

example : decode [0x61, 0xc3, 0xa9, 0xe2, 0x82, 0xac] = "aé€" := by decide +kernel
example : decode [0xe2, 0x82, 0x61, 0xff, 0xf0, 0x9f] = "\ufffda\ufffd\ufffd" := by decide +kernel

end PropertyMetadata.Text.Utf8
