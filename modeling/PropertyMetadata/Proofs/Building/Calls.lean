import PropertyMetadata.Graph.Builder

/-! Calls of a builder, and what they leave in its schema. A call whose name is settled is a part:
it adds a type, a symbol or a declaration, and its records depend on nothing that was added
before. -/

namespace PropertyMetadata

namespace Builder

inductive Call where
  | type (p : TypeParts)
  | symbol (p : SymbolParts)
  | declare (symbol type : Json)

def perform (b : Builder) : Call → Builder
  | .type p => (b.addType p).2
  | .symbol p => (b.addSymbol p).2
  | .declare s t => b.declareType s t

def performAll (b : Builder) (calls : List Call) : Builder := calls.foldl perform b

/-- A call with the name that it gives out. -/
def Call.named (b : Builder) : Call → Call
  | .type p => .type { p with id := (b.nameFor p.id "t").1 }
  | .symbol p => .symbol { p with id := (b.nameFor p.id "s").1 }
  | .declare s t => .declare s t

def named : Builder → List Call → List Call
  | _, [] => []
  | b, c :: cs => c.named b :: named (b.perform c) cs

end Builder

/-! ### Parts -/

structure TypePart where
  id : String
  kind : String
  text : Option String := none
  typeArguments : List String := []
  members : List String := []
  symbol : Option String := none
  aliasSymbol : Option String := none
  deriving DecidableEq

structure SymbolPart where
  id : String
  name : String
  flags : List String := []
  parent : Option String := none
  declared : Option String := none
  deriving DecidableEq

inductive Part where
  | type (p : TypePart)
  | symbol (p : SymbolPart)
  | declare (symbol type : String)
  deriving DecidableEq

/-- A link from a node to another one, as an edge record gives it. -/
structure Link where
  source : String
  target : String
  relation : String
  index : Option Nat

def Json.ofString? (s : Option String) : Json := s.elim .null .string

def Json.ofStrings (ss : List String) : Json := .array (ss.map .string)

namespace Link

def ordered (source relation : String) (ts : List String) : List Link :=
  ts.zipIdx.map fun t => ⟨source, t.1, relation, some t.2⟩

def single (source relation : String) (t : Option String) : List Link :=
  t.toList.map fun t => ⟨source, t, relation, none⟩

def record (l : Link) : Json :=
  Builder.edgeRecord (.string l.source) (.string l.target) l.relation l.index

theorem map_record_ordered (source relation : String) (ts : List String) :
    (ordered source relation ts).map record =
      Builder.orderedRecords (.string source) relation 0 (ts.map .string) := by
  have shifted (n : Nat) :
      ((ts.zipIdx n).map fun t => (⟨source, t.1, relation, some t.2⟩ : Link)).map record =
        Builder.orderedRecords (.string source) relation n (ts.map .string) := by
    induction ts generalizing n with
    | nil => rfl
    | cons t ts ih =>
      simp only [List.zipIdx_cons, List.map_cons, Builder.orderedRecords]
      rw [ih]
      rfl
  exact shifted 0

theorem map_record_single (source relation : String) (t : Option String) :
    (single source relation t).map record =
      Builder.singleRecord (.string source) relation (Json.ofString? t) := by
  cases t <;> rfl

end Link

namespace Part

def call : Part → Builder.Call
  | type p => .type {
      kind := .string p.kind
      text := Json.ofString? p.text
      typeArguments := Json.ofStrings p.typeArguments
      members := Json.ofStrings p.members
      symbol := Json.ofString? p.symbol
      aliasSymbol := Json.ofString? p.aliasSymbol
      id := .string p.id }
  | symbol p => .symbol {
      name := .string p.name
      flags := Json.ofStrings p.flags
      parent := Json.ofString? p.parent
      declaredType := Json.ofString? p.declared
      id := .string p.id }
  | declare s t => .declare (.string s) (.string t)

def names : Part → List String
  | type p => [p.id]
  | symbol p => [p.id]
  | declare _ _ => []

def links : Part → List Link
  | type p => Link.ordered p.id "type_argument" p.typeArguments ++
      Link.ordered p.id "member" p.members ++ Link.single p.id "symbol" p.symbol ++
      Link.single p.id "alias_symbol" p.aliasSymbol
  | symbol p => Link.single p.id "parent" p.parent ++ Link.single p.id "declared_type" p.declared
  | declare s t => [⟨s, t, "declared_type", none⟩]

def records : Part → List Json
  | type p => [.object [("id", .string p.id), ("category", .string "type"),
      ("kind", .string p.kind), ("text", Json.ofString? p.text)]]
  | symbol p => [.object [("id", .string p.id), ("category", .string "symbol"),
      ("name", .string p.name), ("flags", Json.ofStrings p.flags)]]
  | declare _ _ => []

end Part

/-! ### Links -/

theorem Link.of_mem_ordered {l : Link} {source relation : String} {ts : List String}
    (h : l ∈ Link.ordered source relation ts) :
    l.source = source ∧ l.relation = relation ∧ l.target ∈ ts := by
  obtain ⟨t, ht, rfl⟩ := List.mem_map.1 h
  exact ⟨rfl, rfl, List.fst_mem_of_mem_zipIdx ht⟩

theorem Link.of_mem_single {l : Link} {source relation : String} {t : Option String}
    (h : l ∈ Link.single source relation t) :
    l.source = source ∧ l.relation = relation ∧ t = some l.target := by
  obtain ⟨t, ht, rfl⟩ := List.mem_map.1 h
  exact ⟨rfl, rfl, Option.mem_toList.1 ht⟩

namespace Part

theorem mem_links_type {p : TypePart} {l : Link} (h : l ∈ (type p).links) : l.source = p.id ∧
    (l.relation = "type_argument" ∧ l.target ∈ p.typeArguments ∨
      l.relation = "member" ∧ l.target ∈ p.members ∨
      l.relation = "symbol" ∧ p.symbol = some l.target ∨
      l.relation = "alias_symbol" ∧ p.aliasSymbol = some l.target) := by
  simp only [links, List.mem_append] at h
  rcases h with ((h | h) | h) | h
  · obtain ⟨source, relation, target⟩ := Link.of_mem_ordered h
    exact ⟨source, .inl ⟨relation, target⟩⟩
  · obtain ⟨source, relation, target⟩ := Link.of_mem_ordered h
    exact ⟨source, .inr (.inl ⟨relation, target⟩)⟩
  · obtain ⟨source, relation, target⟩ := Link.of_mem_single h
    exact ⟨source, .inr (.inr (.inl ⟨relation, target⟩))⟩
  · obtain ⟨source, relation, target⟩ := Link.of_mem_single h
    exact ⟨source, .inr (.inr (.inr ⟨relation, target⟩))⟩

theorem mem_links_symbol {p : SymbolPart} {l : Link} (h : l ∈ (symbol p).links) :
    l.source = p.id ∧ (l.relation = "parent" ∧ p.parent = some l.target ∨
      l.relation = "declared_type" ∧ p.declared = some l.target) := by
  rcases List.mem_append.1 h with h | h
  · obtain ⟨source, relation, target⟩ := Link.of_mem_single h
    exact ⟨source, .inl ⟨relation, target⟩⟩
  · obtain ⟨source, relation, target⟩ := Link.of_mem_single h
    exact ⟨source, .inr ⟨relation, target⟩⟩

end Part

/-! ### What calls leave behind -/

namespace Builder

variable {b : Builder} {c : Call} {p : Part}

theorem nodes_nameFor (b : Builder) (given : Json) (letter : String) :
    (b.nameFor given letter).2.nodes = b.nodes := by
  unfold nameFor
  split <;> rfl

theorem edges_nameFor (b : Builder) (given : Json) (letter : String) :
    (b.nameFor given letter).2.edges = b.edges := by
  unfold nameFor
  split <;> rfl

theorem perform_part (h : c.named b = p.call) :
    (b.perform c).nodes = b.nodes ++ p.records ∧
      (b.perform c).edges = b.edges ++ p.links.map Link.record := by
  cases c with
  | type q =>
    cases p with
    | type p =>
      simp only [Call.named, Part.call, Call.type.injEq, TypeParts.mk.injEq] at h
      obtain ⟨kind, text, args, members, symbol, aliasSymbol, id⟩ := h
      simp only [perform, addType, kind, text, args, members, symbol, aliasSymbol, id,
        Json.ofStrings, Json.members, addNode, addEdges, nodes_nameFor, edges_nameFor]
      simp [Part.records, Part.links, Link.map_record_ordered, Link.map_record_single]
    | symbol p => cases h
    | declare s t => cases h
  | symbol q =>
    cases p with
    | type p => cases h
    | symbol p =>
      simp only [Call.named, Part.call, Call.symbol.injEq, SymbolParts.mk.injEq] at h
      obtain ⟨name, flags, parent, declared, id⟩ := h
      simp only [perform, addSymbol, name, flags, parent, declared, id, Json.ofStrings,
        Json.members, addNode, addEdges, nodes_nameFor, edges_nameFor]
      simp [Part.records, Part.links, Link.map_record_single, Json.ofStrings]
    | declare s t => cases h
  | declare q r =>
    cases p with
    | type p => cases h
    | symbol p => cases h
    | declare s t =>
      simp only [Call.named, Part.call, Call.declare.injEq] at h
      obtain ⟨rfl, rfl⟩ := h
      simp [perform, declareType, addEdges, Part.records, Part.links, Link.record]

theorem performAll_parts {calls : List Call} {parts : List Part}
    (h : named b calls = parts.map Part.call) :
    (b.performAll calls).nodes = b.nodes ++ parts.flatMap Part.records ∧
      (b.performAll calls).edges = b.edges ++ (parts.flatMap Part.links).map Link.record := by
  induction calls generalizing b parts with
  | nil =>
    obtain rfl : parts = [] := by simpa [named] using h
    simp [performAll]
  | cons c calls ih =>
    cases parts with
    | nil => cases h
    | cons p parts =>
      simp only [named, List.map_cons, List.cons.injEq] at h
      obtain ⟨head, tail⟩ := h
      obtain ⟨nodes, edges⟩ := perform_part head
      obtain ⟨nodes', edges'⟩ := ih tail
      refine ⟨?_, ?_⟩
      · rw [performAll, List.foldl_cons, ← performAll, nodes', nodes]
        simp
      · rw [performAll, List.foldl_cons, ← performAll, edges', edges]
        simp

end Builder

end PropertyMetadata
