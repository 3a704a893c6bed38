import PropertyMetadata.Descriptor
import PropertyMetadata.Text.Pieces
import PropertyMetadata.Union

/-! Resolving a type to a descriptor. A type either has an answer of its own, or it has the answer
of another type, in brackets if it is an array; `step` tells which, and `run` follows the steps. -/

namespace PropertyMetadata

open Text

/-- Parts of a text that mark a wrapper of another type. -/
def wrapperMarks : List String := ["Promise", "Observable"]

/-- Texts of the types that everything belongs to. -/
def topTypes : List String := ["any", "unknown", "object"]

def isWrapper (text : String) : Bool :=
  wrapperMarks.any fun m => occurs m.toList text.toList

/-- Whether what a type is rendered to marks a wrapper: a string by its parts, a collection by its
members. -/
def marksWrapper : Json → Except Fault Bool
  | .string s => .ok (isWrapper s)
  | .array items => .ok (wrapperMarks.any fun m => items.any (Json.alike (.string m)))
  | .object fields => .ok (wrapperMarks.any fun m => (Json.lookup fields m).isSome)
  | v => .error (.mismatch (.notSearchable v))

def isTopType (text : Json) : Except Fault Bool := do
  text.hashable
  return topTypes.any fun s => text.alike (.string s)

/-- What a type comes to: an answer, the bracketed answer of its elements, or the answer of another
type. -/
inductive Step (Handle : Type) where
  | answer (r : Resolution)
  | element (t : Handle)
  | through (t : Handle)

namespace Checker

variable {Handle : Type}

/-- The descriptor that is the text of a type; a type that cannot be rendered is unresolved. -/
def render (c : Checker Handle) (t : Handle) : Except Fault Resolution :=
  match c.text t with
  | .ok text => .ok (.descriptor ⟨text⟩)
  | .error (.unrenderable m) => .ok (.unresolved ("render failed: " ++ m))
  | .error e => .error e

/-- The element type of an array, and whether the type was an array; nothing for an array without
element type. -/
def elementType? (c : Checker Handle) (t : Handle) : Except Fault (Option (Handle × Bool)) := do
  if ← c.is .array t then
    match ← c.typeArguments t with
    | [] => return none
    | u :: _ => return some (u, true)
  else return some (t, false)

/-- What remains of a type when no more special rule applies. -/
def fallback (c : Checker Handle) (t : Handle) (text : Json) : Except Fault Resolution := do
  if ← isTopType text then return .descriptor .object
  else if ← c.is .interface t then return .descriptor .object
  else if (← c.is .unionOrIntersection t) && !(← c.is .enum t) then return .descriptor .object
  else if ← c.is .enum t then return .unresolved "enum"
  else if (← c.aliasSymbol t).isSome then return .descriptor .object
  else return .unresolved ""

/-- What a type comes to that may be the union of an optional property. -/
def stepUnion (c : Checker Handle) (t : Handle) (text : Json) : Except Fault (Step Handle) := do
  if ← c.isOptionalUnion t then return .through ((← c.lastDefinedMember t).getD c.absent)
  else match ← c.enumUnion? t with
    | some e => return .through e
    | none => return .answer (← c.fallback t text)

def stepRendered (c : Checker Handle) (t : Handle) (text : Json) : Except Fault (Step Handle) := do
  if ← marksWrapper text then
    match ← c.typeArguments t with
    | [] => return .answer (.unresolved (text.text ++ " without type argument"))
    | u :: _ => return .through u
  else if ← c.is .classType t then return .answer (.descriptor ⟨text⟩)
  else if text.alike (.string "Date") then return .answer (.descriptor .date)
  else c.stepUnion t text

def step (c : Checker Handle) (t : Handle) : Except Fault (Step Handle) := do
  if ← c.is .array t then
    match ← c.typeArguments t with
    | [] => return .answer (.unresolved "array without element type")
    | u :: _ => return .element u
  else if ← c.is .boolean t then return .answer (.descriptor .boolean)
  else if ← c.is .number t then return .answer (.descriptor .number)
  else if ← c.is .string t then return .answer (.descriptor .string)
  else match ← c.render t with
    | .unresolved reason => return .answer (.unresolved reason)
    | .descriptor d => c.stepRendered t d.text

/-- The outcome of a type when at most `n` types are looked at; nothing when that does not do. -/
def run (c : Checker Handle) : Nat → Handle → Option (Except Fault Resolution)
  | 0, _ => none
  | n + 1, t =>
    match c.step t with
    | .error e => some (.error e)
    | .ok (.answer r) => some (.ok r)
    | .ok (.element u) => (c.run n u).map fun r => r.map Resolution.bracketed
    | .ok (.through u) => c.run n u

/-- The answer when a resolution goes deeper than it may. -/
def tooDeep : Resolution := .unresolved "max depth exceeded"

/-- The resolution of a type that stands `depth` types below the one that was asked for, where
nothing deeper than `limit` is looked at. -/
def resolveBelow (c : Checker Handle) (limit : Int) (depth : Nat) (t : Handle) :
    Except Fault Resolution :=
  if limit < depth then .ok tooDeep
  else match c.step t with
    | .error e => .error e
    | .ok (.answer r) => .ok r
    | .ok (.element u) => (resolveBelow c limit (depth + 1) u).map Resolution.bracketed
    | .ok (.through u) => resolveBelow c limit (depth + 1) u
termination_by (limit + 1 - depth).toNat

/-- The resolution of a type that goes at most `limit` types deep below the type. -/
def resolveWithin (c : Checker Handle) (limit : Int) (t : Handle) : Except Fault Resolution :=
  c.resolveBelow limit 0 t

/-- The resolution of a type by a checker in which at most `size` types lead to other types. Going
on for longer it would go round in a circle for ever. -/
def resolveFully (c : Checker Handle) (size : Nat) (t : Handle) : Except Fault Resolution :=
  (c.run (size + 1) t).getD (.error .endless)

/-- The resolution of a type, with or without a bound on the depth. -/
def resolve (c : Checker Handle) (size : Nat) (depth : Option Int) (t : Handle) :
    Except Fault Resolution :=
  match depth with
  | some n => c.resolveWithin n t
  | none => c.resolveFully size t

end Checker

end PropertyMetadata
