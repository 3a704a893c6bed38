import Mathlib.Data.List.Forall2
import PropertyMetadata.Proofs.Graph.Records
import PropertyMetadata.Proofs.Graph.Reordering

/-! The order of records. Nodes are found by their names, and the ends of edges are sorted by their
indices. Where names differ, and where the indices of the edges that leave one node by one relation
differ, the order in which a schema lists its records is lost: any other order is accepted as well
and gives a graph with the same answers. -/

namespace PropertyMetadata.TypeGraph

open List (Forall₂)

variable {g g' : TypeGraph} {schema schema' record x : Json} {has : Json → Bool} {n : Node}
  {ns : List Node} {es : List Edge} {s relation : String} {names : List String}
  {nodes nodes' edges edges' : List Json}

/-- A record is that of an edge that leaves a node by a relation. -/
def leavesBy (s relation : String) (record : Json) : Bool :=
  match record.required "from" with
  | .ok source => source.alike (.string s) && (recordRelation record).alike (.string relation)
  | .error _ => false

/-- Records of nodes under different names, and of edges that leave the same node by the same
relation under different indices only. -/
structure Told (nodes edges : List Json) (names : List String) : Prop where
  named : Forall₂ (fun r s => r.required "id" = .ok (.string s)) nodes names
  distinct : names.Nodup
  placed : ∀ s ∈ names, ∀ relation ∈ relations, ∃ places : List Int, places.Nodup ∧
    Forall₂ (fun r i => recordIndex r = .int i) (edges.filter (leavesBy s relation)) places

theorem Told.perm (h : Told nodes edges names) (hn : nodes'.Perm nodes) (he : edges'.Perm edges) :
    ∃ names' : List String, names'.Perm names ∧ Told nodes' edges' names' := by
  obtain ⟨names', named, perm⟩ := List.perm_comp_forall₂ hn h.named
  refine ⟨names', perm, named, perm.nodup_iff.2 h.distinct, fun s hs relation hr => ?_⟩
  obtain ⟨places, nodup, indices⟩ := h.placed s (perm.mem_iff.1 hs) relation hr
  obtain ⟨places', indices', perm'⟩ := List.perm_comp_forall₂ (he.filter _) indices
  exact ⟨places', perm'.nodup_iff.2 nodup, indices'⟩

/-! ### Nodes -/

theorem node?_perm (hg : g.StringNamed) (hd : (g.nodes.map Node.id).Nodup)
    (perm : g'.nodes.Perm g.nodes) : g'.node? = g.node? := by
  have hg' : g'.StringNamed := fun n hn => hg n (perm.mem_iff.1 hn)
  have hd' : (g'.nodes.map Node.id).Nodup := (perm.map _).nodup_iff.2 hd
  funext x
  refine Option.ext fun n => ?_
  rw [hg'.node?_eq_some_iff hd', hg.node?_eq_some_iff hd, perm.mem_iff]

/-! ### Lookups -/

/-- What an edge gives to a lookup does not depend on its key. -/
theorem map_leaves_keyless {α : Type} {f : Edge → α} (key : ∀ e, f e.keyless = f e) (g : TypeGraph)
    (id : Json) (relation : String) : (g.edges.filter (Edge.leaves id relation)).map f =
      ((g.edges.map Edge.keyless).filter (Edge.leaves id relation)).map f := by
  rw [List.filter_map, List.map_map]
  exact List.map_congr_left fun e _ => (key e).symm

/-- Where the positions of the edges that leave a node by a relation differ, they decide. -/
theorem sorted_perm_eq (hg : g.StringNamed) (hg' : g'.StringNamed) (hw : g.Wired) (hw' : g'.Wired)
    (perm : (g'.edges.map Edge.keyless).Perm (g.edges.map Edge.keyless))
    (nodup : ((g.edges.filter (Edge.leaves x relation)).map Edge.place).Nodup) :
    g'.sorted x relation = g.sorted x relation := by
  have gives : ((g'.edges.filter (Edge.leaves x relation)).map fun e => (e.place, e.target)).Perm
      ((g.edges.filter (Edge.leaves x relation)).map fun e => (e.place, e.target)) := by
    rw [map_leaves_keyless (fun _ => rfl), map_leaves_keyless (fun _ => rfl)]
    exact (perm.filter _).map _
  refine sorted_eq hg' hw' (gives.trans (sorted_perm hg hw x relation).symm) ?_
  have places : ((g.sorted x relation).map (·.1)).Nodup := by
    refine ((sorted_perm hg hw x relation).map _).nodup_iff.2 ?_
    rwa [List.map_map]
  refine ((g.sorted_pairwise x relation).and (List.pairwise_map.1 places)).imp ?_
  rintro a b ⟨le, ne⟩
  omega

/-- The edges that leave a node by a relation lie at different positions. -/
theorem Told.places (h : Told nodes edges names) (hes : Forall₂ (DescribesEdge has) edges es)
    (hs : s ∈ names) (hr : relation ∈ relations) :
    (∀ e ∈ es.filter (Edge.leaves (.string s) relation), e.Indexed) ∧
      ((es.filter (Edge.leaves (.string s) relation)).map Edge.place).Nodup := by
  obtain ⟨places, nodup, indices⟩ := h.placed s hs relation hr
  have left : Forall₂ (DescribesEdge has) (edges.filter (leavesBy s relation))
      (es.filter (Edge.leaves (.string s) relation)) := by
    refine List.rel_filter (fun record e he => ?_) hes
    simp only [leavesBy, he.source, Edge.leaves, he.relation, Option.any_some]
  refine ⟨fun e he => ?_, ?_⟩
  · obtain ⟨record, hrecord, described⟩ := exists_of_forall₂ left e he
    obtain ⟨i, -, hi⟩ := exists_of_forall₂ indices.flip record hrecord
    exact ⟨i, hi ▸ described.index⟩
  · have placed : Forall₂ (fun r i => ∃ e, DescribesEdge has r e ∧ e.place = i)
        (edges.filter (leavesBy s relation))
        ((es.filter (Edge.leaves (.string s) relation)).map Edge.place) :=
      List.forall₂_map_right_iff.2 (left.imp fun _ e he => ⟨e, he, rfl⟩)
    have same := eq_of_forall₂ (fun r i j => ?_) placed indices
    · rwa [same]
    · rintro ⟨e, he, rfl⟩ hj
      simp only [Edge.place, he.index, hj]

/-- Graphs with the same attributes of nodes and the same ends of edges give the same answers. -/
theorem checker_congr (attributes : g'.attributes = g.attributes)
    (targets : ∀ id, ∀ relation ∈ relations, g'.targets id relation = g.targets id relation) :
    g'.checker = g.checker ∧ g'.declaredType = g.declaredType := by
  have answers := checker_eq (kindIn_congr attributes) (flags_congr attributes) targets
  rwa [text_congr attributes] at answers

/-! ### Schemas -/

theorem Told.map_id (h : Told nodes edges names) (hns : Forall₂ DescribesNode nodes ns) :
    ns.map Node.id = names.map .string := by
  have ids : Forall₂ (fun r id => r.required "id" = .ok id) nodes (ns.map Node.id) :=
    List.forall₂_map_right_iff.2 (hns.imp fun _ _ hn => hn.id)
  have strings : Forall₂ (fun r id => r.required "id" = .ok id) nodes (names.map .string) :=
    List.forall₂_map_right_iff.2 h.named
  exact eq_of_forall₂ (fun _ _ _ h h' => Except.ok.inj (h.symm.trans h')) ids strings

/-- A graph that holds what records tell apart is one of different string names and of whole
indices, different ones where they decide. -/
theorem Told.indexed (h : Told nodes edges names) (hns : Forall₂ DescribesNode nodes ns)
    (hes : Forall₂ (DescribesEdge has) edges es) (holds : g.Holds ns es) :
    g.StringNamed ∧ (g.nodes.map Node.id).Nodup ∧ g.Indexed ∧
      ∀ id, g.has id = true → ∀ relation ∈ relations,
        ((g.edges.filter (Edge.leaves id relation)).map Edge.place).Nodup := by
  have ids : g.nodes.map Node.id = names.map .string := by
    rw [holds.nodes, nodes_ofNodes (h.map_id hns) h.distinct, map_id_fresh, h.map_id hns]
  have named : g.StringNamed := by
    intro n hn
    have hid : n.id ∈ names.map .string := ids ▸ List.mem_map_of_mem hn
    obtain ⟨s, -, hs⟩ := List.mem_map.1 hid
    exact ⟨s, hs.symm⟩
  have known (id : Json) (hid : g.has id = true) : ∃ s ∈ names, id = .string s := by
    obtain ⟨s, rfl⟩ := named.string_of_has hid
    rw [has_string_iff, ids] at hid
    exact ⟨s, by simpa using hid, rfl⟩
  refine ⟨named, ids ▸ h.distinct.map fun _ _ => Json.string.inj, fun e he => ?_, ?_⟩
  · have held : e.keyless ∈ es := holds.edges ▸ List.mem_map_of_mem he
    obtain ⟨record, -, described⟩ := exists_of_forall₂ hes _ held
    obtain ⟨s, hs, source⟩ := known e.source (holds.wired.source e he)
    obtain ⟨relation, hr, hrelation⟩ : ∃ relation ∈ relations,
        recordRelation record = .string relation := by
      simpa [isOneOf, Json.alike_string_iff] using described.related
    have leaves : Edge.leaves (.string s) relation e.keyless = true :=
      Edge.leaves_string_iff.2 ⟨source, hrelation ▸ described.relation⟩
    exact (h.places hes hs hr).1 e.keyless (List.mem_filter.2 ⟨held, leaves⟩)
  · intro id hid relation hr
    obtain ⟨s, hs, rfl⟩ := known id hid
    rw [map_leaves_keyless (fun _ => rfl), holds.edges]
    exact (h.places hes hs hr).2

/-- Another order of the records of an accepted schema is accepted. -/
theorem exists_permuted (h : ofSchema schema = .ok g)
    (hn : records schema "nodes" = .ok nodes) (hn' : records schema' "nodes" = .ok nodes')
    (he : records schema "edges" = .ok edges) (he' : records schema' "edges" = .ok edges')
    (pn : nodes'.Perm nodes) (pe : edges'.Perm edges) (told : Told nodes edges names) :
    ∃ g', ofSchema schema' = .ok g' ∧ g'.checker = g.checker ∧
      g'.declaredType = g.declaredType ∧ ∀ depth id, g'.resolve depth id = g.resolve depth id := by
  obtain ⟨nodes₀, edges₀, ns, es, hn₀, he₀, hns, hes, holds⟩ := holds_of_ofSchema h
  obtain rfl : nodes = nodes₀ := Except.ok.inj (hn.symm.trans hn₀)
  obtain rfl : edges = edges₀ := Except.ok.inj (he.symm.trans he₀)
  obtain ⟨ns', hns', pns⟩ := List.perm_comp_forall₂ pn hns
  obtain ⟨es', hes', pes⟩ := List.perm_comp_forall₂ pe hes
  obtain ⟨names', -, told'⟩ := told.perm pn pe
  obtain ⟨named, distinct, indexed, places⟩ := told.indexed hns hes holds
  have bare : (ofNodes ns').nodes.Perm g.nodes := by
    rw [holds.nodes, nodes_ofNodes (told.map_id hns) told.distinct,
      nodes_ofNodes (told'.map_id hns') told'.distinct]
    exact pns.map _
  have has : (ofNodes ns').has = g.has := by
    funext id
    simp only [TypeGraph.has, node?_perm named distinct bare]
  obtain ⟨g', hg', holds'⟩ := exists_holds hn' he' hns' (has ▸ hes')
  have nodesPerm : g'.nodes.Perm g.nodes := holds'.nodes ▸ bare
  have edgesPerm : (g'.edges.map Edge.keyless).Perm (g.edges.map Edge.keyless) := by
    rw [holds'.edges, holds.edges]
    exact pes
  obtain ⟨named', -, indexed', -⟩ := told'.indexed hns' hes' holds'
  -- nothing but attributes and sorted ends of edges is asked for
  have attributes : g'.attributes = g.attributes := by
    funext id
    simp only [TypeGraph.attributes, node?_perm named distinct nodesPerm]
  have targets (id : Json) (relation : String) (hr : relation ∈ relations) :
      g'.targets id relation = g.targets id relation := by
    cases hid : g.has id with
    | false =>
      simp only [TypeGraph.targets, attributes, attributes_eq_error (node?_of_not_has hid)]
      rfl
    | true =>
      have hid' : g'.has id = true := by
        rwa [TypeGraph.has, node?_perm named distinct nodesPerm]
      rw [targets_eq named' holds'.wired indexed' hid', targets_eq named holds.wired indexed hid,
        sorted_perm_eq named named' holds.wired holds'.wired edgesPerm (places id hid relation hr)]
  obtain ⟨checker, declared⟩ := checker_congr attributes targets
  refine ⟨g', hg', checker, declared, fun depth id => ?_⟩
  rw [resolve, resolve, checker, nodesPerm.length_eq]

/-- The order in which a schema lists its records does not matter. If the nodes have different
names, and the edges that leave one node by one relation have different whole indices, any two
orders are both accepted or both refused, and the graphs of accepted ones answer every question
alike. -/
theorem answers_permuted (hn : records schema "nodes" = .ok nodes)
    (hn' : records schema' "nodes" = .ok nodes') (he : records schema "edges" = .ok edges)
    (he' : records schema' "edges" = .ok edges') (pn : nodes'.Perm nodes) (pe : edges'.Perm edges)
    (told : Told nodes edges names) :
    ((∃ g, ofSchema schema = .ok g) ↔ ∃ g', ofSchema schema' = .ok g') ∧
      ∀ g g', ofSchema schema = .ok g → ofSchema schema' = .ok g' →
        g'.checker = g.checker ∧ g'.declaredType = g.declaredType ∧
          ∀ depth id, g'.resolve depth id = g.resolve depth id := by
  obtain ⟨names', -, told'⟩ := told.perm pn pe
  refine ⟨⟨?_, ?_⟩, fun g g' h h' => ?_⟩
  · rintro ⟨g, h⟩
    obtain ⟨g', hg', -⟩ := exists_permuted h hn hn' he he' pn pe told
    exact ⟨g', hg'⟩
  · rintro ⟨g', h'⟩
    obtain ⟨g, hg, -⟩ := exists_permuted h' hn' hn he' he pn.symm pe.symm told'
    exact ⟨g, hg⟩
  · obtain ⟨k, hk, answers⟩ := exists_permuted h hn hn' he he' pn pe told
    obtain rfl : g' = k := Except.ok.inj (h'.symm.trans hk)
    exact answers

def optionalShuffled : Json := .object [
  ("nodes", .array [
    .object [("id", .string "none"), ("kind", .string "undefined"), ("text", .string "undefined")],
    .object [("id", .string "maybe"), ("kind", .string "union"), ("text", .string "Maybe")],
    .object [("id", .string "text"), ("kind", .string "string")]]),
  ("edges", .array [
    .object [("from", .string "maybe"), ("to", .string "text"), ("relation", .string "member"),
      ("index", .int 1)],
    .object [("from", .string "maybe"), ("to", .string "none"), ("relation", .string "member"),
      ("index", .int 0)]])]

/-- In another order the records of an optional string give a graph in which it still resolves to a
string. -/
theorem resolve_optionalShuffled : ofSchema (optionalText 0 1) = .ok optionalGraph ∧
    ∃ g', ofSchema optionalShuffled = .ok g' ∧ g'.checker = optionalGraph.checker ∧
      g'.resolve none (.string "maybe") = .ok (.descriptor .string) := by
  have loaded : ofSchema (optionalText 0 1) = .ok optionalGraph := by rfl
  have first : optionalGraph.resolve none (.string "maybe") = .ok (.descriptor .string) := by cbv
  have hn : records (optionalText 0 1) "nodes" = .ok _ := rfl
  have he : records (optionalText 0 1) "edges" = .ok _ := rfl
  have hn' : records optionalShuffled "nodes" = .ok _ := rfl
  have he' : records optionalShuffled "edges" = .ok _ := rfl
  obtain ⟨accepted, same⟩ := answers_permuted hn hn' he he' (.swap _ _ _) (.swap _ _ _)
    (show Told _ _ ["maybe", "none", "text"] from {
      named := .cons rfl (.cons rfl (.cons rfl .nil))
      distinct := by decide
      placed := by
        intro s _ relation _
        by_cases both : "maybe" = s ∧ "member" = relation
        · obtain ⟨rfl, rfl⟩ := both
          exact ⟨[0, 1], by decide, .cons rfl (.cons rfl .nil)⟩
        · refine ⟨[], .nil, ?_⟩
          simpa [leavesBy, Json.required, Json.lookup, recordRelation, Json.field?, Json.truthy,
            Json.alike_string] using both })
  obtain ⟨g', hg'⟩ := accepted.1 ⟨_, loaded⟩
  obtain ⟨checker, -, resolve⟩ := same _ _ loaded hg'
  exact ⟨loaded, g', hg', checker, (resolve none _).trans first⟩

end PropertyMetadata.TypeGraph
