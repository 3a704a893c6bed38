import PropertyMetadata.Proofs.Graph.Records

/-! What an accepted schema leaves in order: nodes under different names, their attributes under
different names that nodes can take, and edges that are told apart by their ends and their keys. -/

namespace PropertyMetadata.TypeGraph

open List (Forall₂)

variable {g g' : TypeGraph} {schema record : Json} {n : Node} {ns : List Node}
  {base new : List (String × Json)}

/-! ### Attributes -/

/-- Attributes under different names that nodes can take. -/
structure Proper (fields : List (String × Json)) : Prop where
  distinct : (fields.map (·.1)).Nodup
  free : ∀ f ∈ fields, f.1 ∉ reserved

theorem Proper.nil : Proper [] := ⟨List.nodup_nil, by simp⟩

theorem Proper.updated (hb : Proper base) (hn : ∀ f ∈ new, f.1 ∉ reserved) :
    Proper (updated base new) := by
  induction new generalizing base with
  | nil => exact hb
  | cons f new ih =>
    obtain ⟨hf, hnew⟩ := List.forall_mem_cons.1 hn
    refine ih ⟨Json.nodup_insert hb.distinct _ _, fun a ha => ?_⟩ hnew
    rcases Json.mem_of_mem_insert ha with rfl | ha
    · exact hf
    · exact hb.free a ha

/-! ### Nodes -/

/-- Nodes under different names, with proper attributes. -/
structure Orderly (ns : List Node) : Prop where
  distinct : (ns.map Node.id).Nodup
  proper : ∀ n ∈ ns, Proper n.attributes

theorem Orderly.put (hg : Orderly g.nodes) {s : String} (hs : n.id = .string s)
    (hn : ∀ f ∈ n.attributes, f.1 ∉ reserved) : Orderly (g.put n).nodes where
  distinct := by
    rw [map_id_put]
    split
    next => exact hg.distinct
    next new =>
      rw [hs, has_string_iff] at new
      rw [hs]
      exact List.nodup_append.2 ⟨hg.distinct, List.pairwise_singleton _ _, fun a ha b hb same =>
        new (List.mem_singleton.1 hb ▸ same ▸ ha)⟩
  proper := by
    intro m hm
    rw [TypeGraph.put, setNode] at hm
    split at hm
    · obtain ⟨m', hm', rfl⟩ := List.mem_map.1 hm
      split
      · exact (hg.proper m' hm').updated hn
      · exact hg.proper m' hm'
    · rcases List.mem_append.1 hm with hm | hm
      · exact hg.proper m hm
      · obtain rfl := List.mem_singleton.1 hm
        exact Proper.nil.updated hn

theorem orderly_ofNodes (hs : ∀ n ∈ ns, ∃ s, n.id = .string s)
    (hn : ∀ n ∈ ns, ∀ f ∈ n.attributes, f.1 ∉ reserved) : Orderly (ofNodes ns).nodes := by
  have behind (g : TypeGraph) (hg : Orderly g.nodes) : Orderly (ns.foldl put g).nodes := by
    induction ns generalizing g with
    | nil => exact hg
    | cons n ns ih =>
      obtain ⟨⟨s, hid⟩, hs⟩ := List.forall_mem_cons.1 hs
      obtain ⟨free, hn⟩ := List.forall_mem_cons.1 hn
      exact ih hs hn _ (hg.put hid free)
  exact behind (empty true) ⟨List.nodup_nil, by simp [empty]⟩

/-! ### Edges -/

/-- What tells an edge apart: its ends and its key. -/
def mark (e : Edge) : Json × Json × Json := (e.source, e.target, e.key)

theorem Wired.nodup_join (hw : g.Wired) (hg : g.StringNamed) (hd : (g.edges.map mark).Nodup)
    {e : Edge} (hs : g.has e.source = true) (ht : g.has e.target = true) :
    ((g.join e).edges.map mark).Nodup := by
  let keys := (g.edges.filter (g.joins e.source e.target)).map Edge.key
  have ints : ∀ k ∈ keys, ∃ i, k = .int i := by
    intro k hk
    obtain ⟨e', he', rfl⟩ := List.mem_map.1 hk
    exact hw.key e' (List.mem_filter.1 he').1
  have free : Json.int (g.newKey e.source e.target) ∉ keys := freeKey_not_mem ints keys.length
  rw [hw.join_eq, List.map_append]
  refine List.nodup_append.2 ⟨hd, List.pairwise_singleton _ _, ?_⟩
  rintro a ha b hb rfl
  obtain ⟨e', he', same⟩ := List.mem_map.1 ha
  obtain rfl := List.mem_singleton.1 hb
  simp only [mark, Prod.mk.injEq] at same
  obtain ⟨source, target, key⟩ := same
  refine free (key ▸ List.mem_map_of_mem (List.mem_filter.2 ⟨he', ?_⟩))
  obtain ⟨s, hs⟩ := hg.string_of_has hs
  obtain ⟨t, ht⟩ := hg.string_of_has ht
  simp [joins, source, target, hs, ht, Json.alike_string_self]

/-! ### Schemas -/

/-- A graph in which nodes and edges are told apart, attributes are proper, and relations are those
that there are. -/
structure Tidy (g : TypeGraph) : Prop where
  nodes : Orderly g.nodes
  edges : (g.edges.map mark).Nodup
  related : ∀ e ∈ g.edges, ∃ r ∈ relations, e.relation = some (.string r)

theorem ofSchema_tidy (h : ofSchema schema = .ok g) (hg : g.StringNamed) : g.Tidy := by
  obtain ⟨nodes, edges, ns, es, hn, he, hns, hes, holds⟩ := holds_of_ofSchema h
  refine ⟨?_, ?_, ?_⟩
  · rw [holds.nodes]
    refine orderly_ofNodes (holds.strings hg) fun n hn => ?_
    obtain ⟨record, -, described⟩ := exists_of_forall₂ hns n hn
    exact described.proper
  · obtain ⟨nodes', bare, edges', -, hb, -, joined⟩ := ofSchema_eq_ok_iff.1 h
    have same : g.nodes = bare.nodes := by
      refine foldlM_keeps (P := fun k => k.nodes = bare.nodes) ?_ rfl joined
      intro k record k' hk step
      obtain ⟨e, -, rfl⟩ := addEdgeRecord_eq_join_iff.1 step
      exact (nodes_join k e).trans hk
    have named : bare.StringNamed := by rwa [StringNamed, ← same]
    have none : bare.edges = [] := by
      obtain ⟨ns', -, rfl⟩ := foldlM_addNodeRecord_iff.1 hb
      exact edges_ofNodes ns'
    refine (foldlM_keeps (P := fun k => k.Wired ∧ k.StringNamed ∧ (k.edges.map mark).Nodup) ?_
      ⟨bare_wired hb, named, by simp [none]⟩ joined).2.2
    rintro k record k' ⟨hw, hk, hd⟩ step
    obtain ⟨e, he, rfl⟩ := addEdgeRecord_eq_join_iff.1 step
    refine ⟨hw.addEdge he.joined.1 he.joined.2, ?_, hw.nodup_join hk hd he.joined.1 he.joined.2⟩
    rwa [StringNamed, nodes_join]
  · intro e hmem
    have held : e.keyless ∈ es := holds.edges ▸ List.mem_map_of_mem hmem
    obtain ⟨record, -, described⟩ := exists_of_forall₂ hes _ held
    obtain ⟨r, hr, same⟩ : ∃ r ∈ relations, recordRelation record = .string r := by
      simpa [isOneOf, Json.alike_string_iff] using described.related
    exact ⟨r, hr, same ▸ described.relation⟩

end PropertyMetadata.TypeGraph
