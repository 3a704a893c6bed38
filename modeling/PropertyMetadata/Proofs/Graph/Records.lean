import PropertyMetadata.Proofs.Graph.Loading
import PropertyMetadata.Proofs.Graph.Mapping
import PropertyMetadata.Proofs.Graph.Nodes

/-! What the records of a schema say, apart from the graph that they are put into. A node record
describes a node by itself, an edge record describes an edge by itself but for the names of the
nodes. What they describe is put into the graph one by one, so a schema is accepted just when every
record describes something. -/

namespace PropertyMetadata

open List (Forall₂)

theorem exists_of_forall₂ {α β : Type} {R : α → β → Prop} {as : List α} {bs : List β}
    (h : Forall₂ R as bs) : ∀ b ∈ bs, ∃ a ∈ as, R a b := by
  induction h with
  | nil => simp
  | @cons a b as bs hab _ ih =>
    refine List.forall_mem_cons.2 ⟨⟨a, List.mem_cons_self, hab⟩, fun b' hb' => ?_⟩
    obtain ⟨a', ha', hab'⟩ := ih b' hb'
    exact ⟨a', List.mem_cons_of_mem _ ha', hab'⟩

theorem exists_append_of_forall₂ {α β : Type} {R : α → β → Prop} {as as' : List α} {bs : List β}
    (h : Forall₂ R (as ++ as') bs) :
    ∃ bs₁ bs₂, bs = bs₁ ++ bs₂ ∧ Forall₂ R as bs₁ ∧ Forall₂ R as' bs₂ :=
  ⟨_, _, (List.take_append_drop as.length bs).symm, (List.forall₂_take_append _ _ _ h.flip).flip,
    (List.forall₂_drop_append _ _ _ h.flip).flip⟩

theorem eq_of_forall₂ {α β : Type} {R S : α → β → Prop} (unique : ∀ a b b', R a b → S a b' → b = b')
    {as : List α} {bs bs' : List β} (h : Forall₂ R as bs) (h' : Forall₂ S as bs') : bs = bs' := by
  induction h generalizing bs' with
  | nil =>
    cases h'
    rfl
  | cons hab _ ih =>
    cases h' with
    | cons hab' h' => rw [unique _ _ _ hab hab', ih h']

theorem filterMap_eq_of_forall₂ {α β γ : Type} {R : α → β → Prop} {f : α → Option γ}
    {f' : β → Option γ} (same : ∀ a b, R a b → f a = f' b) {as : List α} {bs : List β}
    (h : Forall₂ R as bs) : as.filterMap f = bs.filterMap f' := by
  induction h with
  | nil => rfl
  | cons hab _ ih => rw [List.filterMap_cons, List.filterMap_cons, same _ _ hab, ih]

namespace TypeGraph

variable {g g' : TypeGraph} {record schema : Json} {has : Json → Bool} {n : Node} {e : Edge}

/-! ### Nodes -/

theorem field?_of_required {record v : Json} {key : String} (h : record.required key = .ok v) :
    record.field? key = some v := by
  cases record with
  | object fields =>
    simp only [Json.required] at h
    cases hv : Json.lookup fields key with
    | none => simp [hv] at h
    | some w => simpa [Json.field?, hv] using h
  | _ => cases h

def recordFields : Json → List (String × Json)
  | .object fields => fields
  | _ => []

/-- A record describes a node, under a proper name and with proper attributes. -/
structure DescribesNode (record : Json) (n : Node) : Prop where
  id : record.required "id" = .ok n.id
  attributes : nodeAttributes n.id (recordFields record) = .ok n.attributes
  proper : ∀ a ∈ n.attributes, a.1 ∉ reserved
  scalar : n.id.isScalar = true
  present : n.id ≠ .null

theorem addNode_eq_ok_iff {id : Json} {attributes : List (String × Json)} :
    g.addNode id attributes = .ok g' ↔ (∀ a ∈ attributes, a.1 ∉ reserved) ∧
      id.isScalar = true ∧ id ≠ .null ∧ g' = g.setNode id attributes := by
  unfold addNode
  split
  next name value found =>
    have hmem := List.mem_of_find?_eq_some found
    have hname := List.find?_some found
    simp only [List.contains_iff_mem] at hname
    simp only [reduceCtorEq, false_iff]
    rintro ⟨proper, -⟩
    exact proper _ hmem hname
  next none =>
    have proper : ∀ a ∈ attributes, a.1 ∉ reserved := by
      simpa using none
    rw [bind_eq_ok_iff, and_iff_right proper]
    cases id <;> simp [Json.hashable, Json.isScalar, pure, Except.pure, eq_comm]

theorem addNodeRecord_eq_ok_iff :
    addNodeRecord g record = .ok g' ↔ ∃ n, DescribesNode record n ∧ g' = g.put n := by
  unfold addNodeRecord
  constructor
  · intro h
    obtain ⟨id, hid, h⟩ := bind_eq_ok_iff.1 h
    obtain ⟨attributes, ha, h⟩ := bind_eq_ok_iff.1 h
    obtain ⟨proper, scalar, present, rfl⟩ := addNode_eq_ok_iff.1 h
    exact ⟨⟨id, attributes⟩, ⟨hid, ha, proper, scalar, present⟩, rfl⟩
  · rintro ⟨n, hn, rfl⟩
    refine bind_eq_ok_iff.2 ⟨n.id, hn.id, bind_eq_ok_iff.2 ⟨n.attributes, hn.attributes, ?_⟩⟩
    exact addNode_eq_ok_iff.2 ⟨hn.proper, hn.scalar, hn.present, rfl⟩

theorem DescribesNode.unique {m : Node} (h : DescribesNode record n) (h' : DescribesNode record m) :
    n = m := by
  obtain ⟨id, attributes⟩ := n
  obtain ⟨id', attributes'⟩ := m
  obtain rfl : id = id' := Except.ok.inj (h.id.symm.trans h'.id)
  obtain rfl : attributes = attributes' := Except.ok.inj (h.attributes.symm.trans h'.attributes)
  rfl

/-! ### Edges -/

/-- A record describes an edge between nodes that are there, of a relation that there is. -/
structure DescribesEdge (has : Json → Bool) (record : Json) (e : Edge) : Prop where
  source : record.required "from" = .ok e.source
  target : record.required "to" = .ok e.target
  joined : has e.source = true ∧ has e.target = true
  related : isOneOf (recordRelation record) relations = true
  key : e.key = .null
  relation : e.relation = some (recordRelation record)
  index : e.index = some (recordIndex record)

/-- A record describes its edge also where there are more nodes. -/
theorem DescribesEdge.mono {has' : Json → Bool} (h : DescribesEdge has record e)
    (more : ∀ id, has id = true → has' id = true) : DescribesEdge has' record e :=
  { h with joined := ⟨more _ h.joined.1, more _ h.joined.2⟩ }

/-- A graph with one more edge. -/
def join (g : TypeGraph) (e : Edge) : TypeGraph :=
  g.addEdge e.source e.target none e.relation e.index

theorem addEdgeRecord_eq_join_iff :
    addEdgeRecord g record = .ok g' ↔ ∃ e, DescribesEdge g.has record e ∧ g' = g.join e := by
  rw [addEdgeRecord_eq_ok_iff]
  constructor
  · rintro ⟨source, target, hsource, htarget, hs, ht, hr, rfl⟩
    exact ⟨⟨source, target, .null, _, _⟩, ⟨hsource, htarget, ⟨hs, ht⟩, hr, rfl, rfl, rfl⟩, rfl⟩
  · rintro ⟨e, he, rfl⟩
    refine ⟨e.source, e.target, he.source, he.target, he.joined.1, he.joined.2, he.related, ?_⟩
    rw [join, he.relation, he.index]

theorem nodes_join (g : TypeGraph) (e : Edge) : (g.join e).nodes = g.nodes := by
  unfold join addEdge
  dsimp only
  split <;> rfl

theorem has_join (g : TypeGraph) (e : Edge) : (g.join e).has = g.has := by
  funext id
  simp only [TypeGraph.has, node?, nodes_join]

theorem Wired.join_eq (hw : g.Wired) (e : Edge) : g.join e =
    { g with edges := g.edges ++ [{ e with key := .int (g.newKey e.source e.target) }] } :=
  hw.addEdge_eq _ _ _ _

theorem Wired.foldl_join (hw : g.Wired) {es : List Edge}
    (hes : ∀ e ∈ es, g.has e.source = true ∧ g.has e.target = true) :
    (es.foldl join g).Wired ∧ (es.foldl join g).nodes = g.nodes ∧
      (es.foldl join g).edges.map Edge.keyless = g.edges.map Edge.keyless ++ es.map Edge.keyless := by
  induction es generalizing g with
  | nil => exact ⟨hw, rfl, by simp⟩
  | cons e es ih =>
    obtain ⟨he, hes⟩ := List.forall_mem_cons.1 hes
    have wired : (g.join e).Wired := hw.addEdge he.1 he.2
    obtain ⟨all, nodes, edges⟩ := ih wired (by simpa only [has_join] using hes)
    refine ⟨all, nodes.trans (nodes_join g e), ?_⟩
    rw [List.foldl_cons, edges, hw.join_eq, List.map_append, List.append_assoc]
    rfl

/-! ### Schemas -/

theorem foldlM_eq_ok_iff {σ α β : Type} {P : σ → Prop} {f : σ → α → Except Fault σ}
    {R : α → β → Prop} {put : σ → β → σ}
    (step : ∀ s a s', P s → (f s a = .ok s' ↔ ∃ b, R a b ∧ s' = put s b))
    (keeps : ∀ s b, P s → P (put s b)) {s s' : σ} (hs : P s) {as : List α} :
    as.foldlM f s = .ok s' ↔ ∃ bs, Forall₂ R as bs ∧ s' = bs.foldl put s := by
  induction as generalizing s with
  | nil =>
    constructor
    · intro h
      exact ⟨[], .nil, (Except.ok.inj h).symm⟩
    · rintro ⟨bs, h, rfl⟩
      cases h
      rfl
  | cons a as ih =>
    rw [List.foldlM_cons, bind_eq_ok_iff]
    constructor
    · rintro ⟨s₁, h₁, h⟩
      obtain ⟨b, hb, rfl⟩ := (step s a s₁ hs).1 h₁
      obtain ⟨bs, hbs, rfl⟩ := (ih (keeps s b hs)).1 h
      exact ⟨b :: bs, .cons hb hbs, rfl⟩
    · rintro ⟨_, h, rfl⟩
      cases h with
      | @cons _ b _ bs hb hbs =>
        exact ⟨put s b, (step s a _ hs).2 ⟨b, hb, rfl⟩, (ih (keeps s b hs)).2 ⟨bs, hbs, rfl⟩⟩

theorem foldlM_addNodeRecord_iff {rs : List Json} : rs.foldlM addNodeRecord (empty true) = .ok g ↔
    ∃ ns, Forall₂ DescribesNode rs ns ∧ g = ofNodes ns :=
  foldlM_eq_ok_iff (P := fun _ => True) (f := addNodeRecord)
    (fun _ _ _ _ => addNodeRecord_eq_ok_iff) (fun _ _ _ => trivial) trivial

theorem foldlM_addEdgeRecord_iff {rs : List Json} : rs.foldlM addEdgeRecord g = .ok g' ↔
    ∃ es, Forall₂ (DescribesEdge g.has) rs es ∧ g' = es.foldl join g := by
  refine foldlM_eq_ok_iff (P := fun k => k.has = g.has) (f := addEdgeRecord) ?_ ?_ rfl
  · intro k record k' hk
    rw [addEdgeRecord_eq_join_iff, hk]
  · intro k e hk
    rw [has_join, hk]

/-- A graph holds nodes and edges that records describe. -/
structure Holds (g : TypeGraph) (ns : List Node) (es : List Edge) : Prop where
  wired : g.Wired
  nodes : g.nodes = (ofNodes ns).nodes
  edges : g.edges.map Edge.keyless = es

theorem Holds.has_eq {ns : List Node} {es : List Edge} (h : g.Holds ns es) :
    (ofNodes ns).has = g.has := by
  funext id
  simp only [TypeGraph.has, node?, h.nodes]

theorem Holds.strings {ns : List Node} {es : List Edge} (h : g.Holds ns es)
    (hg : g.StringNamed) : ∀ n ∈ ns, ∃ s, n.id = .string s := by
  rwa [← stringNamed_ofNodes, StringNamed, ← h.nodes]

theorem Holds.has_of_mem {ns : List Node} {es : List Edge} (h : g.Holds ns es)
    (hg : g.StringNamed) : ∀ n ∈ ns, g.has n.id = true := by
  intro n hn
  obtain ⟨s, hs⟩ := h.strings hg n hn
  rw [hs, ← h.has_eq]
  exact has_ofNodes_iff.2 ⟨n, hn, hs⟩

/-- A schema whose records describe nodes, and edges between these nodes, is accepted. -/
theorem exists_holds {nodes edges : List Json} {ns : List Node} {es : List Edge}
    (hn : records schema "nodes" = .ok nodes) (he : records schema "edges" = .ok edges)
    (hns : Forall₂ DescribesNode nodes ns)
    (hes : Forall₂ (DescribesEdge (ofNodes ns).has) edges es) :
    ∃ g, ofSchema schema = .ok g ∧ g.Holds ns es := by
  have bare := foldlM_addNodeRecord_iff.2 ⟨ns, hns, rfl⟩
  have wired := bare_wired bare
  have joined : ∀ e ∈ es, (ofNodes ns).has e.source = true ∧ (ofNodes ns).has e.target = true := by
    intro e he
    obtain ⟨record, -, described⟩ := exists_of_forall₂ hes e he
    exact described.joined
  have keyless : ∀ e ∈ es, e.keyless = e := by
    intro e he
    obtain ⟨record, -, described⟩ := exists_of_forall₂ hes e he
    rw [Edge.keyless, ← described.key]
  obtain ⟨all, same, added⟩ := wired.foldl_join joined
  rw [edges_ofNodes, List.map_nil, List.nil_append, List.map_congr_left keyless, List.map_id']
    at added
  exact ⟨_, ofSchema_eq_ok_iff.2 ⟨nodes, _, edges, hn, bare, he,
    foldlM_addEdgeRecord_iff.2 ⟨es, hes, rfl⟩⟩, all, same, added⟩

/-- The records of an accepted schema describe what its graph holds. -/
theorem holds_of_ofSchema (h : ofSchema schema = .ok g) : ∃ nodes edges ns es,
    records schema "nodes" = .ok nodes ∧ records schema "edges" = .ok edges ∧
      Forall₂ DescribesNode nodes ns ∧ Forall₂ (DescribesEdge g.has) edges es ∧ g.Holds ns es := by
  obtain ⟨nodes, bare, edges, hn, hb, he, hg⟩ := ofSchema_eq_ok_iff.1 h
  obtain ⟨ns, hns, rfl⟩ := foldlM_addNodeRecord_iff.1 hb
  obtain ⟨es, hes, -⟩ := foldlM_addEdgeRecord_iff.1 hg
  obtain ⟨g', hg', holds⟩ := exists_holds hn he hns hes
  obtain rfl : g = g' := Except.ok.inj (h.symm.trans hg')
  exact ⟨nodes, edges, ns, es, hn, he, hns, holds.has_eq ▸ hes, holds⟩

end TypeGraph

end PropertyMetadata
