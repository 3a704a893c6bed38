import PropertyMetadata.Proofs.GraphMl.Writing
import PropertyMetadata.Proofs.Graph.Relisting
import PropertyMetadata.Proofs.Graph.Tidiness

/-! The document of a graph, read. Nodes come back one behind the other with the attributes that
they had. Edges come back in the order in which they are listed, each a new one, since edges between
the same nodes have different keys. So the graph is read as it is relisted, unless an integer has
more digits than may be read. -/

namespace PropertyMetadata.GraphMl

open Markup Number
open TypeGraph (Orderly Proper Tidy)

variable {g g' k : TypeGraph} {final : List KeyUse} {n : Node} {ns : List Node} {es : List Element}

theorem named_inj {base base' : String} : named base = named base' ↔ base = base' := by
  simp [named]

/-! ### Nodes -/

theorem addNodes_others (keys : List Key) (g : TypeGraph) (h : ∀ e ∈ es, e.name ≠ named "node") :
    addNodes keys g es = .ok g := by
  induction es with
  | nil => rw [addNodes]
  | cons e es ih =>
    obtain ⟨he, hes⟩ := List.forall_mem_cons.1 h
    rw [addNodes, if_neg he, ih hes]

theorem setNode_new (h : g.has n.id = false) (hp : Proper n.attributes) :
    g.setNode n.id n.attributes = { g with nodes := g.nodes ++ [n] } := by
  rw [TypeGraph.setNode, if_neg (by simp [h]), TypeGraph.updated_nil hp.distinct]

theorem addNodes_iff (named' : ∀ n ∈ ns, ∃ s, n.id = .string s) (orderly : Orderly (g.nodes ++ ns))
    (simple : ∀ n ∈ ns, ∀ f ∈ n.attributes, Simple f.2)
    (used : ∀ n ∈ ns, ∀ f ∈ n.attributes, useOf "node" f ∈ final)
    (others : ∀ e ∈ es, e.name ≠ named "node") :
    addNodes (keyList 0 final) g (ns.map (nodeKind.element final) ++ es) = .ok g' ↔
      (∀ n ∈ ns, ∀ f ∈ n.attributes, Readable f.2) ∧ g' = { g with nodes := g.nodes ++ ns } := by
  induction ns generalizing g with
  | nil => simp [addNodes_others _ g others, eq_comm]
  | cons n ns ih =>
    obtain ⟨⟨s, hs⟩, named'⟩ := List.forall_mem_cons.1 named'
    obtain ⟨hn, hns⟩ := List.forall_mem_cons.1 simple
    obtain ⟨un, uns⟩ := List.forall_mem_cons.1 used
    have proper : Proper n.attributes := orderly.proper n (by simp)
    have new : g.has n.id = false := by
      rw [← Bool.not_eq_true, hs, TypeGraph.has_string_iff, ← hs]
      intro old
      have distinct := orderly.distinct
      rw [List.map_append, List.map_cons] at distinct
      exact (List.nodup_append.1 distinct).2.2 _ old _ List.mem_cons_self rfl
    have later := ih (g := { g with nodes := g.nodes ++ [n] }) named'
      (by simpa using orderly) hns uns
    have id : nodeId (nodeKind.element final n) "id" = n.id := by
      simp [nodeId, Kind.element, attribute?_element, nodeKind, Json.lookup, hs]
    have plain : isFolder (nodeKind.element final n) = false := by
      rw [isFolder, Kind.element, attribute?_element]
      rfl
    have added : g.addNode n.id n.attributes = .ok { g with nodes := g.nodes ++ [n] } :=
      TypeGraph.addNode_eq_ok_iff.2
        ⟨proper.free, by rw [hs]; rfl, by simp [hs], (setNode_new new proper).symm⟩
    have read {part : List (String × Json)} : data (keyList 0 final) (nodeKind.element final n) =
        .ok part ↔ (∀ f ∈ n.attributes, Readable f.2) ∧ part = n.attributes :=
      data_iff hn proper.distinct un
    have node : (nodeKind.element final n).name = named "node" := rfl
    rw [List.map_cons, List.cons_append, addNodes, if_pos node, bind_eq_ok_iff,
      List.forall_mem_cons]
    simp only [read, id, plain]
    constructor
    · rintro ⟨_, ⟨readable, rfl⟩, h⟩
      rw [added] at h
      obtain ⟨all, rfl⟩ := later.1 h
      exact ⟨⟨readable, all⟩, by simp⟩
    · rintro ⟨⟨readable, all⟩, rfl⟩
      refine ⟨_, ⟨readable, rfl⟩, ?_⟩
      rw [added]
      exact later.2 ⟨all, by simp⟩

/-! ### Edges -/

/-- The key of an edge, read from its text: a number where it is one of not too many digits. -/
def rekey (key : Json) : Json :=
  match integer? key.text with
  | some i => .int i
  | none => .string key.text

/-- Keys that are numbers stay apart when they are read. -/
theorem rekey_alike {i j : Int} (h : (rekey (.int i)).alike (rekey (.int j)) = true) : i = j := by
  have text (i : Int) : rekey (.int i) = if Short i then .int i else .string (toString i) := by
    have : (Json.int i).text = toString i := rfl
    rw [rekey, this, integer?_toString]
    by_cases short : Short i <;> simp [short]
  rw [text, text] at h
  by_cases hi : Short i <;> by_cases hj : Short j <;>
    simp only [hi, hj, if_true, if_false] at h
  · simpa [Json.alike, Json.number?, Json.sameNumber] using h
  · rw [Json.alike_string_iff] at h
    cases h
  · rw [Json.string_alike_iff] at h
    cases h
  · rw [Json.alike_string, beq_iff_eq] at h
    exact eq_of_toString h

theorem addEdge_new {source target key : Json} {relation index : Option Json}
    (new : ∀ e ∈ g.edges, g.joins source target e = true → key.alike e.key = false) :
    g.addEdge source target (some key) relation index =
      { g with edges := g.edges ++ [⟨source, target, key, relation, index⟩] } := by
  refine if_neg fun taken => ?_
  obtain ⟨k, hk, same⟩ := List.any_eq_true.1 taken
  obtain ⟨e, he, rfl⟩ := List.mem_map.1 hk
  obtain ⟨he, joins⟩ := List.mem_filter.1 he
  rw [Option.getD_some, new e he joins] at same
  contradiction

theorem withEnd_of_has {id : Json} (h : g.has id = true) : withEnd g id = g := by
  rw [withEnd, if_pos h]

/-- An edge as accepted schemas give it: between strings, under a number, with its relation and a
whole index. -/
def Regular (e : Edge) : Prop := ∃ source target key relation index, e = {
  source := .string source, target := .string target, key := .int key,
  relation := some (.string relation), index := some (.int index) }

def reread (e : Edge) : Edge := { e with key := rekey e.key }

theorem edgeKey_element {e : Edge} (h : Regular e) (attributes : List (String × Json)) :
    edgeKey (edgeKind.element final e) attributes = some (rekey e.key) := by
  obtain ⟨source, target, key, relation, index, rfl⟩ := h
  have id : (edgeKind.element final ⟨.string source, .string target, .int key,
      some (.string relation), some (.int index)⟩).attribute? "id" = some (toString key) := by
    simp [Kind.element, attribute?_element, edgeKind, Json.lookup]
    rfl
  rw [edgeKey, id]
  split
  next none => cases none
  next empty => exact absurd (Option.some.inj empty) (toString_ne_empty key)
  next s _ same =>
    obtain rfl := Option.some.inj same
    show _ = some (rekey (.int key))
    have text : (Json.int key).text = toString key := rfl
    rw [rekey, text]
    cases integer? (toString key) <;> rfl

/-- An edge is read as a new one, with the relation and the index that it had. -/
theorem addEdge_iff {e : Edge} (h : Regular e) (hs : g.has e.source = true)
    (ht : g.has e.target = true) (used : ∀ f ∈ edgeAttributes e, useOf "edge" f ∈ final)
    (clean : ∀ f ∈ edgeAttributes e, Simple f.2)
    (new : ∀ e' ∈ g.edges, g.joins e.source e.target e' = true →
      (rekey e.key).alike e'.key = false) :
    addEdge (keyList 0 final) g (edgeKind.element final e) = .ok g' ↔
      (∀ f ∈ edgeAttributes e, Readable f.2) ∧ g' = { g with edges := g.edges ++ [reread e] } := by
  have said : (edgeKind.element final e).attribute? "directed" = none := by
    rw [Kind.element, attribute?_element]
    rfl
  have start : nodeId (edgeKind.element final e) "source" = e.source := by
    obtain ⟨source, target, key, relation, index, rfl⟩ := h
    rw [nodeId, Kind.element, attribute?_element]
    rfl
  have stop : nodeId (edgeKind.element final e) "target" = e.target := by
    obtain ⟨source, target, key, relation, index, rfl⟩ := h
    rw [nodeId, Kind.element, attribute?_element]
    rfl
  have given : Json.lookup (edgeAttributes e) "relation" = e.relation ∧
      Json.lookup (edgeAttributes e) "index" = e.index := by
    obtain ⟨source, target, key, relation, index, rfl⟩ := h
    exact ⟨rfl, rfl⟩
  have distinct : ((edgeAttributes e).map (·.1)).Nodup := by
    obtain ⟨source, target, key, relation, index, rfl⟩ := h
    exact (by decide : ["relation", "index"].Nodup)
  have read {part : List (String × Json)} : data (keyList 0 final) (edgeKind.element final e) =
      .ok part ↔ (∀ f ∈ edgeAttributes e, Readable f.2) ∧ part = edgeAttributes e :=
    data_iff clean distinct used
  have added : g.addEdge e.source e.target (some (rekey e.key)) e.relation e.index =
      { g with edges := g.edges ++ [reread e] } := addEdge_new new
  simp only [addEdge, said, reduceCtorEq, and_false, if_false, bind_eq_ok_iff, read, start, stop,
    edgeKey_element h, withEnd_of_has hs, withEnd_of_has ht]
  constructor
  · rintro ⟨_, ⟨readable, rfl⟩, same⟩
    rw [given.1, given.2, added] at same
    exact ⟨readable, (Except.ok.inj same).symm⟩
  · rintro ⟨readable, rfl⟩
    refine ⟨_, ⟨readable, rfl⟩, ?_⟩
    rw [given.1, given.2, added]
    rfl

/-- Edges that are told apart are told apart by their keys as they are read, too. -/
theorem rekey_apart {e e' : Edge} (h : Regular e) (h' : Regular e') (directed : g.directed = true)
    (apart : TypeGraph.mark e' ≠ TypeGraph.mark e)
    (joins : g.joins e.source e.target (reread e') = true) :
    (rekey e.key).alike (reread e').key = false := by
  obtain ⟨source, target, key, relation, index, rfl⟩ := h
  obtain ⟨source', target', key', relation', index', rfl⟩ := h'
  simp only [TypeGraph.joins, reread, directed, Bool.not_true, Bool.false_and, Bool.or_false,
    Bool.and_eq_true, Json.alike_string_iff] at joins
  rw [← Bool.not_eq_true]
  intro same
  obtain rfl := rekey_alike same
  exact apart (by rw [TypeGraph.mark, TypeGraph.mark, joins.1, joins.2])

/-- Edges are read one behind the other. -/
theorem foldlM_addEdge_iff {done todo : List Edge} (shape : ∀ e ∈ done ++ todo, Regular e)
    (apart : ((done ++ todo).map TypeGraph.mark).Nodup) (directed : g.directed = true)
    (ends : ∀ e ∈ todo, g.has e.source = true ∧ g.has e.target = true)
    (used : ∀ e ∈ todo, ∀ f ∈ edgeAttributes e, useOf "edge" f ∈ final)
    (clean : ∀ e ∈ todo, ∀ f ∈ edgeAttributes e, Simple f.2) :
    (todo.map (edgeKind.element final)).foldlM (addEdge (keyList 0 final))
        { g with edges := done.map reread } = .ok g' ↔
      (∀ e ∈ todo, ∀ f ∈ edgeAttributes e, Readable f.2) ∧
        g' = { g with edges := (done ++ todo).map reread } := by
  induction todo generalizing done with
  | nil => simp [pure, Except.pure, eq_comm]
  | cons e todo ih =>
    obtain ⟨⟨hs, ht⟩, ends⟩ := List.forall_mem_cons.1 ends
    obtain ⟨ue, utodo⟩ := List.forall_mem_cons.1 used
    obtain ⟨ce, ctodo⟩ := List.forall_mem_cons.1 clean
    have shape' : ∀ e' ∈ (done ++ [e]) ++ todo, Regular e' := by simpa using shape
    have later := ih shape' (by simpa using apart) ends utodo ctodo
    let k : TypeGraph := { g with edges := done.map reread }
    have new : ∀ e' ∈ k.edges, k.joins e.source e.target e' = true →
        (rekey e.key).alike e'.key = false := by
      intro e' he' joins
      obtain ⟨d, hd, rfl⟩ := List.mem_map.1 he'
      refine rekey_apart (shape e (by simp)) (shape d (by simp [hd])) directed ?_ joins
      rw [List.map_append, List.map_cons] at apart
      exact (List.nodup_append.1 apart).2.2 _ (List.mem_map_of_mem hd) _ List.mem_cons_self
    have step {k' : TypeGraph} : addEdge (keyList 0 final) k (edgeKind.element final e) = .ok k' ↔
        (∀ f ∈ edgeAttributes e, Readable f.2) ∧ k' = { k with edges := k.edges ++ [reread e] } :=
      addEdge_iff (shape e (by simp)) hs ht ue ce new
    have behind : ({ k with edges := k.edges ++ [reread e] } : TypeGraph) =
        { g with edges := (done ++ [e]).map reread } := by
      simp [k]
    rw [List.map_cons, List.foldlM_cons, bind_eq_ok_iff, List.forall_mem_cons]
    constructor
    · rintro ⟨k', hk, h⟩
      obtain ⟨readable, rfl⟩ := step.1 hk
      rw [behind] at h
      obtain ⟨all, rfl⟩ := later.1 h
      exact ⟨⟨readable, all⟩, by simp⟩
    · rintro ⟨⟨readable, all⟩, rfl⟩
      refine ⟨_, step.2 ⟨readable, rfl⟩, ?_⟩
      rw [behind]
      exact later.2 ⟨all, by simp⟩

/-! ### Documents -/

/-- A graph that can be written and that a schema could have given: what it holds is told apart by
strings and numbers. -/
structure Storable (g : TypeGraph) : Prop where
  writable : Writable g
  named : g.StringNamed
  wired : g.Wired
  tidy : Tidy g
  regular : ∀ e ∈ g.edges, Regular e

/-- No attribute and no index of a graph is an integer of more digits than may be read. -/
structure Fits (g : TypeGraph) : Prop where
  nodes : ∀ n ∈ g.nodes, ∀ f ∈ n.attributes, Readable f.2
  edges : ∀ e ∈ g.listed, ∀ f ∈ edgeAttributes e, Readable f.2

theorem filter_name (base base' : String) (h : ∀ e ∈ es, e.name = named base') :
    es.filter (fun e => e.name == named base) = if base' = base then es else [] := by
  split
  next same =>
    refine List.filter_eq_self.2 fun e he => ?_
    rw [h e he, same, beq_self_eq_true]
  next other =>
    refine List.filter_eq_nil_iff.2 fun e he => ?_
    rw [h e he, beq_iff_eq, named_inj]
    exact other

theorem name_of_mem_map {α : Type} (kind : Kind α) (as : List α) :
    ∀ e ∈ as.map (kind.element final), e.name = named kind.base := by
  rw [List.forall_mem_map]
  exact fun a _ => rfl

theorem childrenNamed_graphElement (final : List KeyUse) (g : TypeGraph) (base : String) :
    (graphElement final g).childrenNamed (named base) =
      (if "node" = base then g.nodes.map (nodeKind.element final) else []) ++
        if "edge" = base then g.listed.map (edgeKind.element final) else [] := by
  show ((_ : List Element) ++ _).filter _ = _
  rw [List.filter_append, filter_name base "node" (name_of_mem_map nodeKind g.nodes),
    filter_name base "edge" (name_of_mem_map edgeKind g.listed)]

section Elements

variable (h : Storable g)
  (used : ∀ u, (∃ f ∈ g.nodes.flatMap Node.attributes, useOf "node" f = u) ∨
    (∃ f ∈ g.listed.flatMap edgeAttributes, useOf "edge" f = u) → u ∈ final)
include h used

theorem addNodes_graphElement_iff : addNodes (keyList 0 final) (.empty true)
    (g.nodes.map (nodeKind.element final) ++ g.listed.map (edgeKind.element final)) = .ok k ↔
      (∀ n ∈ g.nodes, ∀ f ∈ n.attributes, Readable f.2) ∧ k = { g with edges := [] } := by
  have bare : ({ TypeGraph.empty true with nodes := [] ++ g.nodes } : TypeGraph) =
      { g with edges := [] } := by
    rw [← h.wired.directed]
    rfl
  rw [← bare]
  refine addNodes_iff h.named h.tidy.nodes (fun n hn f hf => ((h.writable.nodes n hn).2 f hf).2)
    (fun n hn f hf => used _ (.inl ⟨f, List.mem_flatMap.2 ⟨n, hn, hf⟩, rfl⟩)) ?_
  intro e he same
  rw [name_of_mem_map edgeKind g.listed e he, named_inj] at same
  exact absurd same (by decide)

theorem foldlM_listed_iff : (g.listed.map (edgeKind.element final)).foldlM
    (addEdge (keyList 0 final)) { g with edges := [] } = .ok g' ↔
      (∀ e ∈ g.listed, ∀ f ∈ edgeAttributes e, Readable f.2) ∧ g' = g.relisted rekey := by
  have perm := TypeGraph.listed_perm h.named h.wired h.tidy.nodes.distinct
  have old {e : Edge} (he : e ∈ g.listed) : e ∈ g.edges := perm.mem_iff.1 he
  have shape : ∀ e ∈ [] ++ g.listed, Regular e := fun e he => h.regular e (old he)
  exact foldlM_addEdge_iff shape ((perm.map _).nodup_iff.2 h.tidy.edges) h.wired.directed
    (fun e he => ⟨h.wired.source e (old he), h.wired.target e (old he)⟩)
    (fun e he f hf => used _ (.inr ⟨f, List.mem_flatMap.2 ⟨e, he, hf⟩, rfl⟩))
    (fun e he f hf => ((h.writable.edges e he).2.2.2 f hf).2)

/-- The element of a graph is read as the graph with its edges as they are listed, under keys as
they are read, unless an integer has too many digits. -/
theorem graph_iff :
    graph (keyList 0 final) (graphElement final g) = .ok g' ↔ Fits g ∧ g' = g.relisted rekey := by
  have directed : (graphElement final g).attribute? "edgedefault" == some "directed" := by
    rw [graphElement, attribute?_element]
    rfl
  have hyper : (child? (graphElement final g) (named "hyperedge")).isSome = false := by
    rw [child?, childrenNamed_graphElement]
    rfl
  have none : data (keyList 0 final) (graphElement final g) = .ok [] := by
    rw [data, childrenNamed_graphElement]
    rfl
  have edges : (graphElement final g).childrenNamed (named "edge") =
      g.listed.map (edgeKind.element final) := by
    rw [childrenNamed_graphElement]
    rfl
  rw [graph, directed]
  show addGraph _ _ (.mk (named "graph") _ _ _) = _ ↔ _
  rw [addGraph]
  show (if (child? (graphElement final g) (named "hyperedge")).isSome = true then _ else do
    let k ← addNodes (keyList 0 final) (.empty true)
      (g.nodes.map (nodeKind.element final) ++ g.listed.map (edgeKind.element final))
    let k ← ((graphElement final g).childrenNamed (named "edge")).foldlM
      (addEdge (keyList 0 final)) k
    let _ ← data (keyList 0 final) (graphElement final g)
    return k) = _ ↔ _
  rw [hyper, if_neg (by decide), edges, none]
  simp only [bind_eq_ok_iff, addNodes_graphElement_iff h used]
  constructor
  · rintro ⟨_, ⟨nodes, rfl⟩, k, read, _, -, same⟩
    obtain rfl := Except.ok.inj same
    obtain ⟨edges, rfl⟩ := (foldlM_listed_iff h used).1 read
    exact ⟨⟨nodes, edges⟩, rfl⟩
  · rintro ⟨fits, rfl⟩
    exact ⟨_, ⟨fits.nodes, rfl⟩, _, (foldlM_listed_iff h used).2 ⟨fits.edges, rfl⟩, [], rfl, rfl⟩

end Elements

theorem name_of_mem_keyElements (n : Nat) (us : List KeyUse) :
    ∀ e ∈ keyElements n us, e.name = named "key" := by
  induction us generalizing n with
  | nil => simp [keyElements]
  | cons u us ih => exact List.forall_mem_cons.2 ⟨rfl, ih (n + 1)⟩

theorem childrenNamed_rootElement (final : List KeyUse) (g : TypeGraph) (base : String) :
    (rootElement final g).childrenNamed (named base) =
      (if "key" = base then keyElements 0 final else []) ++
        if "graph" = base then [graphElement final g] else [] := by
  show ((_ : List Element) ++ _).filter _ = _
  rw [List.filter_append, filter_name base "key" (name_of_mem_keyElements 0 final),
    filter_name base "graph" (List.forall_mem_singleton.2 rfl)]

/-- What is written for a graph is read as the graph with its edges as they are listed, under keys
as they are read, unless an integer has too many digits. -/
theorem ofText_iff (h : Storable g) : ∃ doc, ofGraph g = .ok doc ∧
    ∀ g', ofText (print doc) = .ok g' ↔ Fits g ∧ g' = g.relisted rekey := by
  obtain ⟨final, written, mem⟩ := ofGraph_eq h.writable
  refine ⟨rootElement final g, written, fun g' => ?_⟩
  have parsed : root (print (rootElement final g)) = .ok (rootElement final g) := by
    rw [root, parse_rootElement (plain_rootElement h.writable mem)]
  have keys : (rootElement final g).childrenNamed (named "key") = keyElements 0 final := by
    simp [childrenNamed_rootElement]
  have only : (rootElement final g).childrenNamed (named "graph") = [graphElement final g] := by
    simp [childrenNamed_rootElement]
  have read : graphs (rootElement final g) =
      (graph (keyList 0 final) (graphElement final g)).map fun g => [g] := by
    rw [graphs, keys, mapM_keyElements, only]
    simp only [bind, Except.bind, List.mapM_cons, List.mapM_nil]
    cases graph (keyList 0 final) (graphElement final g) <;> rfl
  rw [ofText, parsed, ← graph_iff h fun u hu => (mem u).2 hu]
  simp only [bind, Except.bind, read]
  cases graph (keyList 0 final) (graphElement final g) <;> simp [Except.map, pure, Except.pure]

end PropertyMetadata.GraphMl
