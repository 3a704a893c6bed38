import Mathlib.Data.Set.List
import PropertyMetadata.Proofs.Graph.Embedding
import PropertyMetadata.Proofs.Graph.Records

/-! Giving the nodes of a schema other names. If different names stay different, the schema with
other names is accepted as well, and its graph is the graph with other names. -/

namespace PropertyMetadata

open List (Forall₂)

variable {ρ : String → String}

/-- A name under a renaming. What is no name stays as it is. -/
def Json.renamed (ρ : String → String) : Json → Json
  | .string s => .string (ρ s)
  | x => x

/-- A record with the values of a key mapped. -/
def Json.mapField (f : Json → Json) (key : String) : Json → Json
  | .object fields => .object (fields.map fun p => if p.1 = key then (p.1, f p.2) else p)
  | x => x

def Node.renamed (ρ : String → String) (n : Node) : Node := { n with id := n.id.renamed ρ }

namespace Json

theorem renamed_injective (hρ : Function.Injective ρ) : Function.Injective (renamed ρ) := by
  intro x y h
  cases x <;> cases y <;> simp_all [renamed]
  exact hρ h

theorem renamed_faithful (hρ : Function.Injective ρ) : Faithful (renamed ρ) where
  alike a b := by
    cases a with
    | string s =>
      cases b with
      | string t => simp only [renamed, alike_string, Bool.beq_eq_decide_eq, hρ.eq_iff]
      | _ => rfl
    | _ => cases b <;> rfl
  scalar a := by
    cases a <;> rfl

theorem renamed_eq_null {x : Json} : x.renamed ρ = .null ↔ x = .null := by
  cases x <;> simp [renamed]

theorem lookup_mapField (f : Json → Json) (key k : String) (fields : List (String × Json)) :
    lookup (fields.map fun p => if p.1 = key then (p.1, f p.2) else p) k =
      if k = key then (lookup fields k).map f else lookup fields k := by
  induction fields with
  | nil => simp [lookup]
  | cons p fields ih =>
    by_cases hp : p.1 = key <;> by_cases hk : p.1 = k <;> simp_all [lookup]

end Json

namespace TypeGraph

variable {g g' : TypeGraph} {record schema schema' : Json} {n : Node} {e : Edge} {x t : Json}
  {has : Json → Bool}

/-! ### Nodes -/

theorem node?_renamed (hρ : Function.Injective ρ) (h : g'.nodes = g.nodes.map (Node.renamed ρ))
    (x : Json) : g'.node? (x.renamed ρ) = (g.node? x).map (Node.renamed ρ) := by
  have faithful := Json.renamed_faithful hρ
  have like : (fun n : Node => n.id.alike (x.renamed ρ)) ∘ Node.renamed ρ =
      fun n => n.id.alike x := by
    funext n
    exact faithful.alike n.id x
  simp only [node?, faithful.scalar, h, List.find?_map, like]
  split <;> rfl

theorem has_renamed (hρ : Function.Injective ρ) (h : g'.nodes = g.nodes.map (Node.renamed ρ))
    (x : Json) : g'.has (x.renamed ρ) = g.has x := by
  simp only [TypeGraph.has, node?_renamed hρ h, Option.isSome_map]

theorem nodes_put_renamed (hρ : Function.Injective ρ) (h : g'.nodes = g.nodes.map (Node.renamed ρ))
    (n : Node) : (g'.put (n.renamed ρ)).nodes = (g.put n).nodes.map (Node.renamed ρ) := by
  have faithful := Json.renamed_faithful hρ
  simp only [put, setNode, Node.renamed, has_renamed hρ h]
  split
  · simp only [h, List.map_map]
    refine List.map_congr_left fun m _ => ?_
    simp only [Function.comp_apply, Node.renamed, faithful.alike]
    split <;> rfl
  · simp [h, Node.renamed]

theorem nodes_ofNodes_renamed (hρ : Function.Injective ρ) (ns : List Node) :
    (ofNodes (ns.map (Node.renamed ρ))).nodes = (ofNodes ns).nodes.map (Node.renamed ρ) := by
  have behind (g g' : TypeGraph) (h : g'.nodes = g.nodes.map (Node.renamed ρ)) :
      ((ns.map (Node.renamed ρ)).foldl put g').nodes =
        (ns.foldl put g).nodes.map (Node.renamed ρ) := by
    induction ns generalizing g g' with
    | nil => exact h
    | cons n ns ih => exact ih _ _ (nodes_put_renamed hρ h n)
  exact behind (empty true) (empty true) rfl

/-! ### Records -/

theorem required_mapField {f : Json → Json} {key k : String} {v : Json}
    (h : record.required k = .ok v) :
    (record.mapField f key).required k = .ok (if k = key then f v else v) := by
  cases record with
  | object fields =>
    simp only [Json.required] at h
    split at h
    next v' hv =>
      obtain rfl := Except.ok.inj h
      simp only [Json.mapField, Json.required, Json.lookup_mapField, hv]
      by_cases hk : k = key <;> simp [hk]
    next => cases h
  | _ => cases h

theorem field?_mapField {f : Json → Json} {key k : String} (h : k ≠ key) (record : Json) :
    (record.mapField f key).field? k = record.field? k := by
  cases record with
  | object fields => simp [Json.mapField, Json.field?, Json.lookup_mapField, h]
  | _ => rfl

/-- Fields that are left out can be mapped. -/
theorem filter_mapField {f : Json → Json} {key : String} {keep : String × Json → Bool}
    (out : ∀ p, p.1 = key → keep p = false) (fields : List (String × Json)) :
    (fields.map fun p => if p.1 = key then (p.1, f p.2) else p).filter keep =
      fields.filter keep := by
  induction fields with
  | nil => rfl
  | cons p fields ih =>
    by_cases hp : p.1 = key
    · have dropped : keep (p.1, f p.2) = false := out _ hp
      simp only [List.map_cons, hp, if_true, List.filter_cons, ih, out p hp]
      simp [← hp, dropped]
    · simp only [List.map_cons, hp, if_false, List.filter_cons, ih]

/-- The attributes of a record do not depend on its name. -/
theorem recordAttributes_mapField (f : Json → Json) (fields : List (String × Json)) :
    recordAttributes (fields.map fun p => if p.1 = "id" then (p.1, f p.2) else p) =
      recordAttributes fields := by
  unfold recordAttributes
  rw [filter_mapField]
  rintro ⟨k, v⟩ rfl
  rfl

theorem nodeAttributes_congr {fields fields' attributes : List (String × Json)} {id id' : Json}
    (same : recordAttributes fields' = recordAttributes fields)
    (h : nodeAttributes id fields = .ok attributes) :
    nodeAttributes id' fields' = .ok attributes := by
  unfold nodeAttributes at h ⊢
  simp only [same]
  dsimp only at h ⊢
  split at h
  next type =>
    rw [if_pos type]
    obtain ⟨⟨⟩, hashable, h⟩ := bind_eq_ok_iff.1 h
    refine bind_eq_ok_iff.2 ⟨(), hashable, ?_⟩
    split at h
    next known => rw [if_pos known]; exact h
    next unknown => cases h
  next other =>
    rw [if_neg other]
    exact h

theorem DescribesNode.renamed (h : DescribesNode record n) :
    DescribesNode (record.mapField (Json.renamed ρ) "id") (n.renamed ρ) where
  id := required_mapField h.id
  attributes := by
    refine nodeAttributes_congr ?_ h.attributes
    cases record with
    | object fields => exact recordAttributes_mapField _ fields
    | _ => rfl
  proper := h.proper
  scalar := by
    have := h.scalar
    cases hid : n.id <;> simp_all [Node.renamed, Json.renamed, Json.isScalar]
  present := fun hn => h.present (Json.renamed_eq_null.1 hn)

/-- The record of an edge with other names for its ends. -/
def renamedEnds (ρ : String → String) (record : Json) : Json :=
  (record.mapField (Json.renamed ρ) "from").mapField (Json.renamed ρ) "to"

theorem field?_renamedEnds {k : String} (hf : k ≠ "from") (ht : k ≠ "to") (record : Json) :
    (renamedEnds ρ record).field? k = record.field? k := by
  rw [renamedEnds, field?_mapField ht, field?_mapField hf]

theorem DescribesEdge.renamed {has' : Json → Bool} (h : DescribesEdge has record e)
    (kept : ∀ x, has x = true → has' (x.renamed ρ) = true) :
    DescribesEdge has' (renamedEnds ρ record) (e.along (Json.renamed ρ)) := by
  have relation : recordRelation (renamedEnds ρ record) = recordRelation record := by
    simp only [recordRelation, field?_renamedEnds (k := "relation") (by decide) (by decide)]
  have index : recordIndex (renamedEnds ρ record) = recordIndex record := by
    simp only [recordIndex, field?_renamedEnds (k := "index") (by decide) (by decide)]
  exact {
    source := required_mapField (required_mapField h.source)
    target := required_mapField (required_mapField h.target)
    joined := ⟨kept _ h.joined.1, kept _ h.joined.2⟩
    related := by
      rw [relation]
      exact h.related
    key := rfl
    relation := by
      rw [relation]
      exact h.relation
    index := by
      rw [index]
      exact h.index }

/-! ### Schemas -/

def KeptApart (g : TypeGraph) (ρ : String → String) : Prop :=
  ∀ a b, g.has (.string a) = true → g.has (.string b) = true → ρ a = ρ b → a = b

/-- A renaming that keeps some names apart is one that keeps all names apart, as far as these names
go: all others get longer than any name that is given to them. -/
theorem exists_injective {names : List String} (h : ∀ a ∈ names, ∀ b ∈ names, ρ a = ρ b → a = b) :
    ∃ σ : String → String, Function.Injective σ ∧ ∀ s ∈ names, σ s = ρ s := by
  let pad := String.ofList (List.replicate ((names.map fun s => (ρ s).length).max?.getD 0 + 1) 'x')
  have longer (a b : String) (ha : a ∈ names) : ρ a ≠ pad ++ b := by
    intro same
    have bound : (ρ a).length ≤ (names.map fun s => (ρ s).length).max?.getD 0 :=
      List.le_max?_getD_of_mem (List.mem_map_of_mem ha)
    have length := congrArg String.length same
    simp only [pad, String.length_append, String.length_ofList, List.length_replicate] at length
    omega
  refine ⟨fun s => if s ∈ names then ρ s else pad ++ s, fun a b same => ?_, fun s hs => if_pos hs⟩
  dsimp only at same
  split at same
  next ha =>
    split at same
    next hb => exact h a ha b hb same
    next hb => exact absurd same (longer a b ha)
  next ha =>
    split at same
    next hb => exact absurd same.symm (longer b a hb)
    next hb => exact (String.append_right_inj _).1 same

/-- Names that keep nodes apart are those of a renaming that keeps all names apart. -/
theorem KeptApart.exists_injective (hρ : g.KeptApart ρ) (hg : g.StringNamed) :
    ∃ σ, Function.Injective σ ∧ ∀ x, g.has x = true → x.renamed σ = x.renamed ρ := by
  obtain ⟨names, hnames⟩ : g.nodes.map Node.id ∈ Set.range (List.map Json.string) := by
    rw [Set.range_list_map]
    intro id hid
    obtain ⟨n, hn, rfl⟩ := List.mem_map.1 hid
    obtain ⟨s, hs⟩ := hg n hn
    exact ⟨s, hs.symm⟩
  have known (s : String) : g.has (.string s) = true ↔ s ∈ names := by
    rw [has_string_iff, ← hnames]
    simp
  have apart : ∀ a ∈ names, ∀ b ∈ names, ρ a = ρ b → a = b := by
    intro a ha b hb
    exact hρ a b ((known a).2 ha) ((known b).2 hb)
  obtain ⟨σ, hσ, same⟩ := TypeGraph.exists_injective apart
  refine ⟨σ, hσ, fun x hx => ?_⟩
  obtain ⟨s, rfl⟩ := hg.string_of_has hx
  rw [Json.renamed, Json.renamed, same s ((known s).1 hx)]

/-- A schema that says of other names what another schema says. -/
structure Renames (ρ : String → String) (schema schema' : Json) : Prop where
  nodes : records schema' "nodes" =
    (records schema "nodes").map (List.map fun r => r.mapField (Json.renamed ρ) "id")
  edges : records schema' "edges" = (records schema "edges").map (List.map (renamedEnds ρ))

/-- A schema with other names is accepted, and its graph is the graph with other names. -/
theorem ofSchema_renamed (h : ofSchema schema = .ok g) (hg : g.StringNamed) (hρ : g.KeptApart ρ)
    (renames : Renames ρ schema schema') : ∃ g' σ, ofSchema schema' = .ok g' ∧
      Function.Injective σ ∧ (∀ x, g.has x = true → x.renamed σ = x.renamed ρ) ∧
      g'.nodes = g.nodes.map (Node.renamed σ) ∧
      g'.edges.map Edge.keyless = g.edges.map (Edge.along (Json.renamed σ)) := by
  -- names of no node do not matter, so the renaming may be taken for one that keeps all names apart
  obtain ⟨σ, hσ, same⟩ := hρ.exists_injective hg
  obtain ⟨nodes, edges, ns, es, hn, he, hns, hes, holds⟩ := holds_of_ofSchema h
  have renamedNodes : ns.map (Node.renamed ρ) = ns.map (Node.renamed σ) := by
    refine List.map_congr_left fun n hn => ?_
    simp only [Node.renamed, same n.id (holds.has_of_mem hg n hn)]
  have renamedEdges :
      es.map (Edge.along (Json.renamed ρ)) = es.map (Edge.along (Json.renamed σ)) := by
    refine List.map_congr_left fun e he => ?_
    obtain ⟨record, -, describes⟩ := exists_of_forall₂ hes e he
    simp only [Edge.along, same _ describes.joined.1, same _ describes.joined.2]
  have named := nodes_ofNodes_renamed hσ ns
  have kept (x : Json) (hx : g.has x = true) :
      (ofNodes (ns.map (Node.renamed ρ))).has (x.renamed ρ) = true := by
    rw [renamedNodes, ← same x hx, has_renamed hσ named, holds.has_eq, hx]
  have hns' : Forall₂ DescribesNode (nodes.map fun r => r.mapField (Json.renamed ρ) "id")
      (ns.map (Node.renamed ρ)) :=
    List.forall₂_map_left_iff.2 (List.forall₂_map_right_iff.2 (hns.imp fun _ _ hn => hn.renamed))
  have hes' : Forall₂ (DescribesEdge (ofNodes (ns.map (Node.renamed ρ))).has)
      (edges.map (renamedEnds ρ)) (es.map (Edge.along (Json.renamed ρ))) :=
    List.forall₂_map_left_iff.2
      (List.forall₂_map_right_iff.2 (hes.imp fun _ _ he => he.renamed kept))
  have hn' := renames.nodes
  have he' := renames.edges
  rw [hn] at hn'
  rw [he] at he'
  obtain ⟨g', hg', holds'⟩ := exists_holds hn' he' hns' hes'
  refine ⟨g', σ, hg', hσ, same, ?_, ?_⟩
  · rw [holds'.nodes, renamedNodes, named, holds.nodes]
  · rw [holds'.edges, renamedEdges, ← holds.edges, List.map_map]
    rfl

/-- A graph is embedded in the graph with other names. -/
theorem embedding_renamed (hρ : Function.Injective ρ) (hw : g.Wired) (hw' : g'.Wired)
    (nodes : g'.nodes = g.nodes.map (Node.renamed ρ))
    (edges : g'.edges.map Edge.keyless = g.edges.map (Edge.along (Json.renamed ρ)))
    (ht : g.has t = true) : g.Embedding g' t (Json.renamed ρ) := by
  have faithful := Json.renamed_faithful hρ
  refine .of_edges faithful (Json.renamed_injective hρ) hw ht (hw'.directed.trans hw.directed.symm)
    (fun x hx => ⟨?_, ?_⟩) fun x _ => ?_
  · rw [has_renamed hρ nodes, hx]
  · simp only [attributes, node?_renamed hρ nodes]
    obtain ⟨n, hn⟩ := Option.isSome_iff_exists.1 hx
    rw [hn]
    rfl
  · have leaves (k : Json → Json) (y z : Json) (hk : ∀ a, (k a).alike z = a.alike y)
        (es : List Edge) : (es.filter fun e => e.source.alike y).map (Edge.along k) =
          (es.map (Edge.along k)).filter fun e => e.source.alike z := by
      rw [List.filter_map]
      congr 2
      funext e
      exact (hk e.source).symm
    rw [leaves _ x (x.renamed ρ) (fun a => faithful.alike a x), ← edges, ← Edge.along_id,
      leaves id _ _ (fun _ => rfl)]

end TypeGraph

end PropertyMetadata
