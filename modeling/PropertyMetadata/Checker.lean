import PropertyMetadata.Flags

/-! Checkers: sources of answers to questions on types and symbols. A type or symbol is a handle
that means nothing by itself; every question may fail. -/

namespace PropertyMetadata

/-- What a checker can be asked to say of a type with yes or no. -/
inductive Shape where
  | array | boolean | number | string | classType | interface | enum | unionOrIntersection
  | undefined
  deriving DecidableEq, Repr

/-- A source of answers on types and symbols, which are both given by handles. -/
structure Checker (Handle : Type) where
  /-- Whether a type has a shape. -/
  is : Shape → Handle → Except Fault Bool
  /-- The type arguments, in order. -/
  typeArguments : Handle → Except Fault (List Handle)
  /-- The members of a union or an intersection, in order. -/
  members : Handle → Except Fault (List Handle)
  /-- The text that a type is rendered to. -/
  text : Handle → Except Fault Json
  symbol : Handle → Except Fault (Option Handle)
  aliasSymbol : Handle → Except Fault (Option Handle)
  flags : Handle → Except Fault Flags
  parent : Handle → Except Fault (Option Handle)
  /-- The type that a symbol declares. -/
  declaredType : Handle → Except Fault (Option Handle)
  /-- The handle that stands for no type. -/
  absent : Handle
  /-- Whether two handles name the same type. -/
  same : Handle → Handle → Bool

end PropertyMetadata
