import PropertyMetadata.Checker

/-! Unions that a compiler makes of optional properties. An optional property of a type becomes the
union of the type and `undefined`; of an enum, the union of its members and `undefined`. -/

namespace PropertyMetadata.Checker

variable {Handle : Type}

/-- The members of a union or intersection that is no enum; none otherwise. -/
def unionMembers (c : Checker Handle) (t : Handle) : Except Fault (List Handle) := do
  if !(← c.is .unionOrIntersection t) then return []
  else if ← c.is .enum t then return []
  else c.members t

/-- The types before the first undefined one and the types behind it. -/
def splitUndefined (c : Checker Handle) :
    List Handle → Except Fault (Option (List Handle × List Handle))
  | [] => .ok none
  | t :: ts => do
    if ← c.is .undefined t then return some ([], ts)
    else match ← splitUndefined c ts with
      | none => return none
      | some (before, behind) => return some (t :: before, behind)

/-- Whether a type is the union of exactly two members of which one is undefined. -/
def isOptionalUnion (c : Checker Handle) (t : Handle) : Except Fault Bool := do
  match ← c.unionMembers t with
  | [] => return false
  | ts => if ts.length ≠ 2 then return false else return (← c.splitUndefined ts).isSome

/-- The enum that a type is a member of: its symbol is exactly an enum member, and the parent of
the symbol declares the enum. `none` if it is no member, and `some none` if the parent declares
nothing. -/
def enumOfMember (c : Checker Handle) (t : Handle) : Except Fault (Option (Option Handle)) := do
  match ← c.symbol t with
  | none => return none
  | some s =>
    match ← c.parent s with
    | none => return none
    | some p =>
      if (← c.flags s) = .enumMember then return some (← c.declaredType p) else return none

/-- The one enum that types are members of, going on from the enum of the types before. -/
def commonEnum (c : Checker Handle) : Option Handle → List Handle → Except Fault (Option Handle)
  | before, [] => .ok before
  | before, t :: ts => do
    match ← c.enumOfMember t with
    | none => return none
    | some declared =>
      let agrees := match before, declared with
        | some e, some d => c.same d e
        | some _, none => false
        | none, _ => true
      if agrees then commonEnum c declared ts else return none

/-- The enum whose members, with the first undefined member set aside, are those of a union. -/
def enumUnion? (c : Checker Handle) (t : Handle) : Except Fault (Option Handle) := do
  match ← c.unionMembers t with
  | [] => return none
  | ts =>
    match ← c.splitUndefined ts with
    | none => return none
    | some (before, behind) => c.commonEnum none (before ++ behind)

def firstDefined (c : Checker Handle) : List Handle → Except Fault (Option Handle)
  | [] => .ok none
  | t :: ts => do if ← c.is .undefined t then firstDefined c ts else return some t

def lastDefinedMember (c : Checker Handle) (t : Handle) : Except Fault (Option Handle) := do
  c.firstDefined (← c.members t).reverse

end PropertyMetadata.Checker
