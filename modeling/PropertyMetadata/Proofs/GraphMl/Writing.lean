import PropertyMetadata.Proofs.GraphMl.Data

/-! The document of a graph. Nodes and edges are written one by one, each with the data of its
attributes under keys that the whole document shares, so the document is that of the nodes, of the
listed edges, and of the keys that are used. It can be printed and read again. -/

namespace PropertyMetadata.GraphMl

open Markup

variable {g : TypeGraph} {α : Type} {uses uses' final : List KeyUse}

/-! ### Things with attributes -/

/-- A kind of things that are written as elements with data. -/
structure Kind (α : Type) where
  scope : String
  base : String
  named : α → List (String × String)
  fields : α → List (String × Json)

namespace Kind

def element (k : Kind α) (final : List KeyUse) (a : α) : Element :=
  GraphMl.element k.base (k.named a) none ((k.fields a).map (dataElement final k.scope))

def elements (k : Kind α) : List KeyUse → List α → Except Fault (List Element × List KeyUse)
  | uses, [] => .ok ([], uses)
  | uses, a :: as => do
    let (data, uses) ← dataElements k.scope uses (k.fields a)
    let (rest, uses) ← k.elements uses as
    return (GraphMl.element k.base (k.named a) none data :: rest, uses)

theorem elements_eq (k : Kind α) (uses : List KeyUse) (as : List α)
    (h : ∀ a ∈ as, ∀ f ∈ k.fields a, Simple f.2) :
    ∃ es uses', k.elements uses as = .ok (es, uses') ∧
      Grows k.scope (as.flatMap k.fields) uses uses' ∧
      ∀ final, uses' <+: final → es = as.map (k.element final) := by
  induction as generalizing uses with
  | nil => exact ⟨[], uses, rfl, .nil k.scope uses, fun _ _ => rfl⟩
  | cons a as ih =>
    obtain ⟨ha, has⟩ := List.forall_mem_cons.1 h
    obtain ⟨data, next, written, grown, shape⟩ := dataElements_eq k.scope uses ha
    obtain ⟨es, uses', others, grown', shapes⟩ := ih next has
    refine ⟨GraphMl.element k.base (k.named a) none data :: es, uses', ?_, grown.append grown',
      fun final hfinal => ?_⟩
    · rw [elements, written]
      simp only [bind, Except.bind, others]
      rfl
    · rw [List.map_cons, shapes final hfinal, shape final (grown'.longer.trans hfinal)]
      rfl

end Kind

/-- Nodes under their names. -/
def nodeKind : Kind Node where
  scope := "node"
  base := "node"
  named n := [("id", n.id.text)]
  fields := Node.attributes

/-- Edges between the names of nodes, under their keys. -/
def edgeKind : Kind Edge where
  scope := "edge"
  base := "edge"
  named e := [("source", e.source.text), ("target", e.target.text), ("id", e.key.text)]
  fields := edgeAttributes

theorem nodeElements_eq (uses : List KeyUse) (ns : List Node) :
    nodeElements uses ns = nodeKind.elements uses ns := by
  induction ns generalizing uses with
  | nil => rfl
  | cons n ns ih => simp only [nodeElements, Kind.elements, ih]; rfl

theorem edgeElements_eq (uses : List KeyUse) (es : List Edge) :
    edgeElements uses es = edgeKind.elements uses es := by
  induction es generalizing uses with
  | nil => rfl
  | cons e es ih => simp only [edgeElements, Kind.elements, ih]; rfl

/-! ### Documents -/

def graphElement (final : List KeyUse) (g : TypeGraph) : Element :=
  element "graph" [("edgedefault", "directed")] none
    (g.nodes.map (nodeKind.element final) ++ g.listed.map (edgeKind.element final))

def rootElement (final : List KeyUse) (g : TypeGraph) : Element :=
  element "graphml" [] none (keyElements 0 final ++ [graphElement final g])

/-- A graph of simple values under names that documents keep. -/
structure Writable (g : TypeGraph) : Prop where
  directed : g.directed = true
  nodes : ∀ n ∈ g.nodes, Clean n.id.text ∧ ∀ f ∈ n.attributes, Clean f.1 ∧ Simple f.2
  edges : ∀ e ∈ g.listed, Clean e.source.text ∧ Clean e.target.text ∧ Clean e.key.text ∧
    ∀ f ∈ edgeAttributes e, Clean f.1 ∧ Simple f.2

/-- A graph that can be written is written with keys for its attributes and no others. -/
theorem ofGraph_eq (h : Writable g) :
    ∃ final, ofGraph g = .ok (rootElement final g) ∧
      ∀ u, u ∈ final ↔ (∃ f ∈ g.nodes.flatMap Node.attributes, useOf "node" f = u) ∨
        ∃ f ∈ g.listed.flatMap edgeAttributes, useOf "edge" f = u := by
  obtain ⟨nodes, uses, wn, gn, sn⟩ := nodeKind.elements_eq [] g.nodes
    fun n hn f hf => ((h.nodes n hn).2 f hf).2
  obtain ⟨edges, final, we, ge, se⟩ := edgeKind.elements_eq uses g.listed
    fun e he f hf => ((h.edges e he).2.2.2 f hf).2
  refine ⟨final, ?_, fun u => ?_⟩
  · rw [ofGraph, nodeElements_eq, wn]
    simp only [bind, Except.bind, edgeElements_eq, we, h.directed, if_true, sn final ge.longer,
      se final List.prefix_rfl]
    rfl
  · rw [ge.mem, gn.mem]
    simp only [List.not_mem_nil, false_or]
    rfl

/-! ### Printing -/

theorem clean_keyId (n : Nat) : Clean (keyId n) := by
  intro c hc
  rw [keyId, String.toList_append, List.mem_append] at hc
  rcases hc with hc | hc
  · exact (by decide : Clean "d") c hc
  · exact clean_toString (n : Int) c hc

theorem writable_attribute {key value : String} (hk : isName key.toList = true) (hv : Clean value)
    (hx : key ≠ "xmlns") : IsWritable (key, value) ∧ (key, value).1 ≠ "xmlns" :=
  ⟨⟨hk, fun c hc => (hv c hc).1⟩, hx⟩

theorem plain_dataElement {f : String × Json} (scope : String) (hf : Simple f.2) :
    Plain space (dataElement final scope f) := by
  refine .mk (by decide) ?_ (List.nodup_singleton _) ?_ (by simp)
  · exact List.forall_mem_singleton.2 (writable_attribute (by decide) (clean_keyId _) (by decide))
  · intro s hs
    split at hs
    · cases hs
    next nonempty =>
      obtain rfl := Option.some.inj hs
      exact ⟨fun empty => nonempty (by simp [empty]), clean_text hf⟩

theorem plain_keyElements {us : List KeyUse} (h : ∀ u ∈ us, Clean u.scope ∧ Clean u.name) (n : Nat) :
    ∀ e ∈ keyElements n us, Plain space e := by
  induction us generalizing n with
  | nil => simp [keyElements]
  | cons u us ih =>
    obtain ⟨⟨scope, name⟩, hus⟩ := List.forall_mem_cons.1 h
    have type : Clean u.type.name := by cases u.type <;> decide
    have distinct : ["id", "for", "attr.name", "attr.type"].Nodup := by decide
    refine List.forall_mem_cons.2 ⟨.mk (by decide) ?_ distinct (by simp) (by simp), ih hus (n + 1)⟩
    simp only [List.forall_mem_cons, List.not_mem_nil, false_imp_iff, implies_true, and_true]
    exact ⟨writable_attribute (by decide) (clean_keyId n) (by decide),
      writable_attribute (by decide) scope (by decide),
      writable_attribute (by decide) name (by decide),
      writable_attribute (by decide) type (by decide)⟩

/-- The document of a graph that can be written can be printed. -/
theorem plain_rootElement (h : Writable g)
    (mem : ∀ u, u ∈ final ↔ (∃ f ∈ g.nodes.flatMap Node.attributes, useOf "node" f = u) ∨
        ∃ f ∈ g.listed.flatMap edgeAttributes, useOf "edge" f = u) :
    Plain space (rootElement final g) := by
  have uses : ∀ u ∈ final, Clean u.scope ∧ Clean u.name := by
    intro u hu
    rcases (mem u).1 hu with ⟨f, hf, rfl⟩ | ⟨f, hf, rfl⟩
    · obtain ⟨n, hn, hf⟩ := List.mem_flatMap.1 hf
      exact ⟨(by decide : Clean "node"), ((h.nodes n hn).2 f hf).1⟩
    · obtain ⟨e, he, hf⟩ := List.mem_flatMap.1 hf
      exact ⟨(by decide : Clean "edge"), ((h.edges e he).2.2.2 f hf).1⟩
  have data (scope : String) {fields : List (String × Json)}
      (hf : ∀ f ∈ fields, Clean f.1 ∧ Simple f.2) :
      ∀ e ∈ fields.map (dataElement final scope), Plain space e := by
    rintro _ he
    obtain ⟨f, hmem, rfl⟩ := List.mem_map.1 he
    exact plain_dataElement scope (hf f hmem).2
  have graph : Plain space (graphElement final g) := by
    refine .mk (by decide) ?_ (by decide) (by simp) (List.forall_mem_append.2 ⟨?_, ?_⟩)
    · exact List.forall_mem_singleton.2 (writable_attribute (by decide) (by decide) (by decide))
    · rw [List.forall_mem_map]
      intro n hn
      obtain ⟨id, fields⟩ := h.nodes n hn
      refine .mk (by decide) ?_ (List.nodup_singleton _) (by simp) (data "node" fields)
      exact List.forall_mem_singleton.2 (writable_attribute (by decide) id (by decide))
    · rw [List.forall_mem_map]
      intro e he
      obtain ⟨source, target, key, fields⟩ := h.edges e he
      have distinct : ["source", "target", "id"].Nodup := by decide
      refine .mk (by decide) ?_ distinct (by simp) (data "edge" fields)
      simp only [edgeKind, List.forall_mem_cons, List.not_mem_nil, false_imp_iff, implies_true,
        and_true]
      exact ⟨writable_attribute (by decide) source (by decide),
        writable_attribute (by decide) target (by decide),
        writable_attribute (by decide) key (by decide)⟩
  refine @Plain.mk _ _ [] none _ (by decide) (by simp) List.nodup_nil (by simp)
    (List.forall_mem_append.2 ⟨plain_keyElements uses 0, List.forall_mem_singleton.2 graph⟩)

theorem parse_rootElement (h : Plain space (rootElement final g)) :
    Markup.parse (print (rootElement final g)) = .ok (rootElement final g) :=
  parse_print (fun c hc => ((by decide : Clean space) c hc).1) (by decide) h

end PropertyMetadata.GraphMl
