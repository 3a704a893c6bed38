import PropertyMetadata.Proofs.Graph.Renaming
import PropertyMetadata.Proofs.Graph.Reordering

/-! Resolution is local. What a type resolves to depends on what can be reached from it, and on that
up to names only. Nodes with other names, or more nodes with edges that leave only them, change
nothing about the types that there are. -/

namespace PropertyMetadata

open List (Forall₂)

namespace TypeGraph

variable {g g' k k' : TypeGraph} {schema schema' record t x : Json} {old has has' : Json → Bool}
  {n : Node} {ns : List Node} {e e' : Edge} {ρ : String → String}

/-! ### More nodes -/

/-- A graph whose nodes are some of those of another one finds these under their names. -/
theorem node?_of_filter (named : k'.StringNamed)
    (nodes : k.nodes = k'.nodes.filter fun n => old n.id) (hx : old x = true) :
    k.node? x = k'.node? x := by
  have like : (k.nodes.filter fun n => n.id.alike x) = k'.nodes.filter fun n => n.id.alike x := by
    rw [nodes, List.filter_filter]
    refine List.filter_congr fun n hn => ?_
    obtain ⟨s, hs⟩ := named n hn
    by_cases same : x = .string s
    · rw [hs, ← same, hx, Bool.and_true]
    · rw [hs, Bool.eq_false_iff.2 (mt Json.string_alike_iff.1 same), Bool.false_and]
  simp only [node?, ← List.head?_filter, like]

/-- Putting a node into both graphs, or one that is left out into the bigger one only. -/
theorem put_filter (named : k'.StringNamed) (hn : ∃ s, n.id = .string s)
    (nodes : k.nodes = k'.nodes.filter fun n => old n.id) :
    (if old n.id then k.put n else k).nodes = (k'.put n).nodes.filter fun n => old n.id := by
  let update (m : Node) : Node :=
    if m.id.alike n.id then ⟨m.id, updated m.attributes n.attributes⟩ else m
  have kept (m : Node) : (update m).id = m.id := by
    simp only [update]
    split <;> rfl
  have updating : (k'.nodes.map update).filter (fun n => old n.id) = k.nodes.map update := by
    rw [List.filter_map, nodes]
    simp only [Function.comp_def, kept]
  cases ho : old n.id with
  | true =>
    have found : k.has n.id = k'.has n.id := by
      simp only [TypeGraph.has, node?_of_filter named nodes ho]
    simp only [if_true, put, setNode, found]
    split
    next => exact updating.symm
    next => simp [List.filter_append, nodes, ho]
  | false =>
    simp only [Bool.false_eq_true, if_false, put, setNode]
    split
    next =>
      rw [updating]
      conv_lhs => rw [← List.map_id k.nodes]
      refine List.map_congr_left fun m hm => (if_neg fun like => ?_).symm
      -- a node like the one that is left out is left out itself
      obtain ⟨hm, hold⟩ := List.mem_filter.1 (nodes ▸ hm)
      obtain ⟨s, hs⟩ := hn
      rw [hs, Json.alike_string_iff, ← hs] at like
      rw [like, ho] at hold
      contradiction
    next => simp [List.filter_append, nodes, ho]

/-- Leaving out nodes by their names before they are put into a graph, or after. -/
theorem nodes_ofNodes_filter (named : ∀ n ∈ ns, ∃ s, n.id = .string s) :
    (ofNodes (ns.filter fun n => old n.id)).nodes =
      (ofNodes ns).nodes.filter fun n => old n.id := by
  have behind (k k' : TypeGraph) (hk : k'.StringNamed)
      (nodes : k.nodes = k'.nodes.filter fun n => old n.id) :
      ((ns.filter fun n => old n.id).foldl put k).nodes =
        (ns.foldl put k').nodes.filter fun n => old n.id := by
    induction ns generalizing k k' with
    | nil => exact nodes
    | cons n ns ih =>
      obtain ⟨hn, hns⟩ := List.forall_mem_cons.1 named
      have step := ih hns _ _ (stringNamed_put.2 ⟨hk, hn⟩) (put_filter hk hn nodes)
      rw [List.foldl_cons, ← step, List.filter_cons]
      split <;> rfl
  exact behind (empty true) (empty true) (by simp [StringNamed, empty]) rfl

theorem DescribesEdge.unique (h : DescribesEdge has record e) (h' : DescribesEdge has' record e') :
    e = e' := by
  obtain ⟨source, target, key, relation, index⟩ := e
  obtain ⟨source', target', key', relation', index'⟩ := e'
  obtain rfl : source = source' := Except.ok.inj (h.source.symm.trans h'.source)
  obtain rfl : target = target' := Except.ok.inj (h.target.symm.trans h'.target)
  obtain rfl : key = key' := h.key.trans h'.key.symm
  obtain rfl : relation = relation' := h.relation.trans h'.relation.symm
  obtain rfl : index = index' := h.index.trans h'.index.symm
  rfl

/-- A field of a record names a node. -/
def naming (g : TypeGraph) (key : String) (record : Json) : Bool :=
  match record.required key with
  | .ok id => g.has id
  | .error _ => false

/-- A schema with more nodes, of other names, and with more edges, which leave these nodes. The
records that there are keep their order. -/
structure Extends (g : TypeGraph) (schema schema' : Json) : Prop where
  nodes : records schema "nodes" = (records schema' "nodes").map (List.filter (g.naming "id"))
  edges : records schema "edges" = (records schema' "edges").map (List.filter (g.naming "from"))

/-- The nodes and the edges that the graph of a bigger schema has more are left out again. -/
theorem nodes_edges_of_extends (h : ofSchema schema = .ok g) (h' : ofSchema schema' = .ok g')
    (hg' : g'.StringNamed) (more : Extends g schema schema') :
    g.nodes = (g'.nodes.filter fun n => g.has n.id) ∧
      g.edges.map Edge.keyless =
        (g'.edges.map Edge.keyless).filter fun e => g.has e.source := by
  obtain ⟨nodes, edges, ns, es, hn, he, hns, hes, holds⟩ := holds_of_ofSchema h
  obtain ⟨nodes', edges', ns', es', hn', he', hns', hes', holds'⟩ := holds_of_ofSchema h'
  obtain rfl : nodes = nodes'.filter (g.naming "id") := by
    have := more.nodes
    rw [hn, hn'] at this
    exact Except.ok.inj this
  obtain rfl : edges = edges'.filter (g.naming "from") := by
    have := more.edges
    rw [he, he'] at this
    exact Except.ok.inj this
  have left : Forall₂ DescribesNode (nodes'.filter (g.naming "id"))
      (ns'.filter fun n => g.has n.id) := by
    refine List.rel_filter (fun record n hn => ?_) hns'
    simp only [naming, hn.id]
  have left' : Forall₂ (DescribesEdge g'.has) (edges'.filter (g.naming "from"))
      (es'.filter fun e => g.has e.source) := by
    refine List.rel_filter (fun record e he => ?_) hes'
    simp only [naming, he.source]
  obtain rfl := eq_of_forall₂ (fun _ _ _ h h' => h.unique h') hns left
  obtain rfl := eq_of_forall₂ (fun _ _ _ h h' => h.unique h') hes left'
  refine ⟨?_, ?_⟩
  · rw [holds.nodes, holds'.nodes, nodes_ofNodes_filter (holds'.strings hg')]
  · rw [holds.edges, holds'.edges]

/-- A graph is embedded in a graph with more nodes. -/
theorem embedding_of_extends (h : ofSchema schema = .ok g) (h' : ofSchema schema' = .ok g')
    (hg : g.StringNamed) (hg' : g'.StringNamed) (more : Extends g schema schema')
    (ht : g.has t = true) : g.Embedding g' t id := by
  obtain ⟨nodes, edges⟩ := nodes_edges_of_extends h h' hg' more
  have hw := ofSchema_wired h
  have same (x : Json) (hx : g.has x = true) : g.node? x = g'.node? x :=
    node?_of_filter hg' nodes hx
  refine .of_edges .id (fun _ _ => id) hw ht
    ((ofSchema_wired h').directed.trans hw.directed.symm) (fun x hx => ⟨?_, ?_⟩) fun x hx => ?_
  · simpa only [TypeGraph.has, same x hx, id] using hx
  · simp only [attributes, id, same x hx]
  · obtain ⟨s, rfl⟩ := hg.string_of_has hx
    have leaves (es : List Edge) :
        (es.filter fun e => e.source.alike (.string s)).map Edge.keyless =
          (es.map Edge.keyless).filter fun e => e.source.alike (.string s) := by
      rw [List.filter_map]
      rfl
    rw [Edge.along_id, id, leaves, leaves, edges, List.filter_filter]
    refine List.filter_congr fun e _ => ?_
    by_cases hs : e.source = .string s
    · rw [hs, hx, Bool.and_true]
    · rw [Bool.eq_false_iff.2 (mt Json.alike_string_iff.1 hs), Bool.false_and]

/-! ### Resolutions -/

/-- A resolution of a graph has the outcomes of one of another graph: the same descriptors, no type
that is found by either, a fault of the same kind, or no end. -/
structure SameOutcomes (g : TypeGraph) (t : Json) (g' : TypeGraph) (t' : Json) : Prop where
  resolve : ∀ depth, Agree Resolution.Same (g.resolve depth t) (g'.resolve depth t')
  endless : g.checker.Endless t ↔ g'.checker.Endless t'

/-- A map of the nodes that can be reached from a type to nodes of another graph, which keeps them
apart and keeps what they are and what they are linked to, keeps all outcomes of resolutions. So do
other names for all nodes, and so do more nodes with edges that leave only them. -/
theorem resolve_local (h : ofSchema schema = .ok g) (hg : g.StringNamed) (ht : g.has t = true) :
    (∀ schema' g' f, ofSchema schema' = .ok g' → g'.StringNamed → g.Embedding g' t f →
      SameOutcomes g t g' (f t)) ∧
    (∀ ρ schema', g.KeptApart ρ → Renames ρ schema schema' →
      ∃ g', ofSchema schema' = .ok g' ∧ SameOutcomes g t g' (t.renamed ρ)) ∧
    (∀ schema' g', ofSchema schema' = .ok g' → g'.StringNamed → Extends g schema schema' →
      SameOutcomes g t g' t) := by
  have hw := ofSchema_wired h
  have embedded {g' : TypeGraph} {f : Json → Json} (hg' : g'.StringNamed)
      (into : g.Embedding g' t f) : SameOutcomes g t g' (f t) := by
    obtain ⟨resolve, endless⟩ := into.resolve_agrees hg hg' hw ht
    exact ⟨resolve, endless⟩
  refine ⟨fun schema' g' f _ hg' into => embedded hg' into, ?_, ?_⟩
  · intro ρ schema' hρ renames
    obtain ⟨g', σ, hg', hσ, same, nodes, edges⟩ := ofSchema_renamed h hg hρ renames
    have named : g'.StringNamed := by
      rw [StringNamed, nodes, List.forall_mem_map]
      intro n hn
      obtain ⟨s, hs⟩ := hg n hn
      exact ⟨σ s, by rw [Node.renamed, hs, Json.renamed]⟩
    have into := embedding_renamed hσ hw (ofSchema_wired hg') nodes edges ht
    exact ⟨g', hg', same t ht ▸ embedded named into⟩
  · intro schema' g' h' hg' more
    exact embedded hg' (embedding_of_extends h h' hg hg' more ht)

def optionalName : Json := .object [
  ("nodes", .array [
    .object [("id", .string "my maybe"), ("kind", .string "union"), ("text", .string "Maybe")],
    .object [("id", .string "my none"), ("kind", .string "undefined"),
      ("text", .string "undefined")],
    .object [("id", .string "my text"), ("kind", .string "string")]]),
  ("edges", .array [
    .object [("from", .string "my maybe"), ("to", .string "my none"),
      ("relation", .string "member"), ("index", .int 0)],
    .object [("from", .string "my maybe"), ("to", .string "my text"),
      ("relation", .string "member"), ("index", .int 1)]])]

/-- An optional string resolves to a string, under whatever names. -/
theorem resolve_optionalName : ofSchema (optionalText 0 1) = .ok optionalGraph ∧
    optionalGraph.StringNamed ∧ ∃ g', ofSchema optionalName = .ok g' ∧
      g'.resolve none (.string "my maybe") = .ok (.descriptor .string) := by
  have loaded : ofSchema (optionalText 0 1) = .ok optionalGraph := by rfl
  have named : optionalGraph.StringNamed := by simp [StringNamed, optionalGraph]
  have first : optionalGraph.resolve none (.string "maybe") = .ok (.descriptor .string) := by cbv
  have apart : optionalGraph.KeptApart fun s => "my " ++ s := by
    intro a b _ _ same
    exact (String.append_right_inj _).1 same
  obtain ⟨-, otherwise, -⟩ := resolve_local (t := .string "maybe") loaded named (by decide)
  obtain ⟨g', hg', same⟩ := otherwise (fun s => "my " ++ s) optionalName apart ⟨rfl, rfl⟩
  refine ⟨loaded, named, g', hg', ?_⟩
  have agrees : Agree Resolution.Same (.ok (.descriptor .string))
      (g'.resolve none (.string "my maybe")) := first ▸ same.resolve none
  generalize g'.resolve none (.string "my maybe") = outcome at agrees ⊢
  cases agrees with
  | ok same =>
    cases same
    rfl

end TypeGraph

end PropertyMetadata
