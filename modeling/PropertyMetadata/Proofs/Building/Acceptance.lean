import PropertyMetadata.Proofs.Building.Calls
import PropertyMetadata.Proofs.Graph.Records

/-! Building a graph of parts. If the names differ, the kinds are known and every link joins names
that are given out, the build succeeds, and the graph has one node for each name and one edge for
each link. -/

namespace PropertyMetadata

open TypeGraph
open List (Forall₂)

def TypePart.attributes (p : TypePart) : List (String × Json) :=
  [("category", .string "type"), ("kind", .string p.kind)] ++
    p.text.toList.map fun s => ("text", .string s)

def SymbolPart.attributes (p : SymbolPart) : List (String × Json) :=
  [("category", .string "symbol"), ("name", .string p.name),
    ("flags", .string (",".intercalate p.flags))]

namespace Part

def nodes : Part → List Node
  | type p => [⟨.string p.id, p.attributes⟩]
  | symbol p => [⟨.string p.id, p.attributes⟩]
  | declare _ _ => []

theorem map_id_nodes (p : Part) : p.nodes.map Node.id = p.names.map .string := by
  cases p <;> rfl

structure WellFormed (parts : List Part) : Prop where
  distinct : (parts.flatMap names).Nodup
  kinds : ∀ p, type p ∈ parts → p.kind ∈ typeKinds
  linked : ∀ l ∈ parts.flatMap links,
    l.source ∈ parts.flatMap names ∧ l.target ∈ parts.flatMap names

end Part

def Link.edge (l : Link) : Edge :=
  ⟨.string l.source, .string l.target, .null, some (.string l.relation),
    some (.int (l.index.getD 0))⟩

theorem Link.relation_mem {p : Part} {l : Link} (h : l ∈ p.links) : l.relation ∈ relations := by
  cases p with
  | type p =>
    obtain ⟨-, ⟨h, -⟩ | ⟨h, -⟩ | ⟨h, -⟩ | ⟨h, -⟩⟩ := Part.mem_links_type h <;> simp [h, relations]
  | symbol p =>
    obtain ⟨-, ⟨h, -⟩ | ⟨h, -⟩⟩ := Part.mem_links_symbol h <;> simp [h, relations]
  | declare s t =>
    obtain rfl := List.mem_singleton.1 h
    simp [relations]

namespace TypeGraph

variable {g g' : TypeGraph} {parts : List Part} {p : Part} {l : Link} {s : String}

/-- A graph of parts with different names: their nodes, and an edge for each of their links. -/
structure Built (g : TypeGraph) (parts : List Part) : Prop where
  wired : g.Wired
  distinct : (parts.flatMap Part.names).Nodup
  nodes : g.nodes = parts.flatMap Part.nodes
  edges : g.edges.map Edge.keyless = (parts.flatMap Part.links).map Link.edge

theorem isOneOf_string_iff {names : List String} :
    isOneOf (.string s) names = true ↔ s ∈ names := by
  simp [isOneOf, Json.alike_string]

/-! ### Nodes -/

theorem commaJoined_strings (n : Nat) (ss : List String) :
    commaJoined n (ss.map .string) = .ok (",".intercalate ss) := by
  induction ss generalizing n with
  | nil => rfl
  | cons s ss ih =>
    cases ss with
    | nil => simp [commaJoined]
    | cons t ss =>
      rw [String.intercalate_cons_cons, List.map_cons, List.map_cons, commaJoined, ← List.map_cons,
        ih]
      · rfl
      · simp

theorem nodeAttributes_type {q : TypePart} (hk : q.kind ∈ typeKinds) (id : Json) :
    nodeAttributes id [("id", .string q.id), ("category", .string "type"),
      ("kind", .string q.kind), ("text", Json.ofString? q.text)] = .ok q.attributes := by
  have kind := isOneOf_string_iff.2 hk
  cases ht : q.text <;>
    simp [nodeAttributes, recordAttributes, TypePart.attributes, ht, Json.lookup, Json.ofString?,
      Json.alike_string, Json.hashable, Json.isScalar, kind, bind, Except.bind, pure, Except.pure]

theorem nodeAttributes_symbol (q : SymbolPart) (id : Json) :
    nodeAttributes id [("id", .string q.id), ("category", .string "symbol"),
      ("name", .string q.name), ("flags", Json.ofStrings q.flags)] = .ok q.attributes := by
  simp [nodeAttributes, recordAttributes, SymbolPart.attributes, Json.lookup, Json.ofStrings,
    Json.alike_string, commaJoined_strings, Json.insert, bind, Except.bind, pure, Except.pure]

theorem describes_part (hk : ∀ q, p = .type q → q.kind ∈ typeKinds) :
    Forall₂ DescribesNode p.records p.nodes := by
  cases p with
  | type q =>
    have proper : ∀ a ∈ q.attributes, a.1 ∉ reserved := by
      cases ht : q.text <;> simp [TypePart.attributes, ht, reserved]
    exact .cons ⟨rfl, nodeAttributes_type (hk q rfl) _, proper, rfl, by simp⟩ .nil
  | symbol q =>
    have proper : ∀ a ∈ q.attributes, a.1 ∉ reserved := by
      simp [SymbolPart.attributes, reserved]
    exact .cons ⟨rfl, nodeAttributes_symbol q _, proper, rfl, by simp⟩ .nil
  | declare s t => exact .nil

theorem describes_parts (hk : ∀ q, .type q ∈ parts → q.kind ∈ typeKinds) :
    Forall₂ DescribesNode (parts.flatMap Part.records) (parts.flatMap Part.nodes) := by
  induction parts with
  | nil => exact .nil
  | cons p parts ih =>
    have head := describes_part (p := p) fun q hq => hk q (by simp [hq])
    exact List.rel_append head (ih fun q hq => hk q (List.mem_cons_of_mem _ hq))

theorem fresh_part {n : Node} (h : n ∈ p.nodes) : fresh n = n := by
  cases p with
  | type q =>
    obtain rfl := List.mem_singleton.1 h
    cases ht : q.text <;> simp [fresh, TypePart.attributes, ht, updated, Json.insert]
  | symbol q =>
    obtain rfl := List.mem_singleton.1 h
    simp [fresh, SymbolPart.attributes, updated, Json.insert]
  | declare s t => cases h

theorem nodes_ofNodes_parts (hd : (parts.flatMap Part.names).Nodup) :
    (ofNodes (parts.flatMap Part.nodes)).nodes = parts.flatMap Part.nodes := by
  have ids : (parts.flatMap Part.nodes).map Node.id =
      (parts.flatMap Part.names).map .string := by
    rw [List.map_flatMap, List.map_flatMap]
    exact List.flatMap_congr fun p _ => p.map_id_nodes
  rw [nodes_ofNodes ids hd]
  refine (List.map_congr_left fun n hn => ?_).trans (List.map_id _)
  obtain ⟨p, -, hn⟩ := List.mem_flatMap.1 hn
  exact fresh_part hn

/-! ### Edges -/

theorem describes_link {has : Json → Bool} (hr : l.relation ∈ relations)
    (joined : has (.string l.source) = true ∧ has (.string l.target) = true) :
    DescribesEdge has l.record l.edge := by
  have relation : recordRelation l.record = .string l.relation := by
    have : l.relation ≠ "" := by
      rintro h
      simp [h, relations] at hr
    simp [recordRelation, Link.record, Builder.edgeRecord, Json.field?, Json.lookup, Json.truthy,
      this]
  have index : recordIndex l.record = .int (l.index.getD 0) := by
    cases hi : l.index <;>
      simp [recordIndex, Link.record, Builder.edgeRecord, Json.field?, Json.lookup, hi]
  have related : isOneOf (recordRelation l.record) relations = true := by
    rw [relation]
    exact isOneOf_string_iff.2 hr
  exact ⟨rfl, rfl, joined, related, rfl, by rw [relation]; rfl, by rw [index]; rfl⟩

/-! ### The build -/

/-- Calls that add well-formed parts build a graph of these parts. -/
theorem build_of_wellFormed {calls : List Builder.Call}
    (hp : Builder.named {} calls = parts.map Part.call) (hw : Part.WellFormed parts) :
    ∃ g, (Builder.performAll {} calls).build = .ok g ∧ g.Built parts := by
  obtain ⟨records, links⟩ := Builder.performAll_parts hp
  have nodes := nodes_ofNodes_parts hw.distinct
  have has (s : String) (hs : s ∈ parts.flatMap Part.names) :
      (ofNodes (parts.flatMap Part.nodes)).has (.string s) = true := by
    obtain ⟨p, hp, hs⟩ := List.mem_flatMap.1 hs
    have hid : Json.string s ∈ p.nodes.map Node.id := by
      rw [p.map_id_nodes]
      exact List.mem_map_of_mem hs
    obtain ⟨n, hn, hid⟩ := List.mem_map.1 hid
    exact has_ofNodes_iff.2 ⟨n, List.mem_flatMap.2 ⟨p, hp, hn⟩, hid⟩
  have described : Forall₂ (DescribesEdge (ofNodes (parts.flatMap Part.nodes)).has)
      ((parts.flatMap Part.links).map Link.record) ((parts.flatMap Part.links).map Link.edge) := by
    refine List.forall₂_map_left_iff.2 (List.forall₂_map_right_iff.2 (List.forall₂_same.2 ?_))
    intro l hl
    obtain ⟨p, -, hmem⟩ := List.mem_flatMap.1 hl
    exact describes_link (Link.relation_mem hmem)
      ⟨has _ (hw.linked l hl).1, has _ (hw.linked l hl).2⟩
  have hn : TypeGraph.records (Builder.performAll {} calls).schema "nodes" =
      .ok (parts.flatMap Part.records) := by
    rw [Builder.schema, records]
    rfl
  have he : TypeGraph.records (Builder.performAll {} calls).schema "edges" =
      .ok ((parts.flatMap Part.links).map Link.record) := by
    rw [Builder.schema, links]
    rfl
  obtain ⟨g, hg, holds⟩ := exists_holds hn he (describes_parts hw.kinds) described
  exact ⟨g, hg, holds.wired, hw.distinct, holds.nodes.trans nodes, holds.edges⟩

end TypeGraph

end PropertyMetadata
