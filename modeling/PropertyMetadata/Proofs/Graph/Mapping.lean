import Mathlib.Data.List.Permutation
import PropertyMetadata.Proofs.Graph.Lookup

/-! Other names for the nodes of a graph. A map of names that keeps different names apart changes
nothing about the edges but their ends: what a node is linked to in one graph, in order, are the
images of what it is linked to in the other. -/

namespace PropertyMetadata

/-- A map of values under which two are alike just when they were, and names stay names. -/
structure Json.Faithful (f : Json → Json) : Prop where
  alike : ∀ a b, (f a).alike (f b) = a.alike b
  scalar : ∀ a, (f a).isScalar = a.isScalar

theorem Json.Faithful.id : Json.Faithful id := ⟨fun _ _ => rfl, fun _ => rfl⟩

/-- An edge with its ends mapped, whatever its key. -/
def Edge.along (f : Json → Json) (e : Edge) : Edge :=
  { e with source := f e.source, target := f e.target, key := .null }

/-- An edge whatever its key. -/
def Edge.keyless (e : Edge) : Edge := { e with key := .null }

theorem Edge.along_id : Edge.along id = Edge.keyless := rfl

theorem mapM_map_answer {α β γ : Type} (ask : α → Except Fault β) (h : β → γ) (as : List α) :
    as.mapM (fun a => (ask a).map h) = (as.mapM ask).map (List.map h) := by
  induction as with
  | nil => rfl
  | cons a as ih =>
    rw [List.mapM_cons, List.mapM_cons, ih]
    cases ask a with
    | error e => rfl
    | ok b => cases as.mapM ask <;> rfl

namespace TypeGraph

variable {g g' : TypeGraph} {f : Json → Json} {x x' : Json} {relation : String}

theorem distinctTargets_along (hf : Json.Faithful f) (seen : List Json) (es : List Edge) :
    distinctTargets (seen.map f) (es.map (Edge.along f)) = (distinctTargets seen es).map f := by
  induction es generalizing seen with
  | nil => rfl
  | cons e es ih =>
    have any : (seen.map f).any (f e.target).alike = seen.any e.target.alike := by
      simp only [List.any_map, Function.comp_def, hf.alike]
    have rest := ih (e.target :: seen)
    simp only [List.map_cons, distinctTargets]
    rw [show (Edge.along f e).target = f e.target from rfl, any, ih seen]
    rw [List.map_cons] at rest
    rw [rest]
    split <;> rfl

/-- Mapped edges are brought together as the edges were. -/
theorem bunched_along (hf : Json.Faithful f) (es : List Edge) :
    bunched (es.map (Edge.along f)) = (bunched es).map (Edge.along f) := by
  have targets := distinctTargets_along hf [] es
  simp only [bunched]
  rw [show ([] : List Json) = [].map f from rfl, targets, List.flatMap_map, List.map_flatMap]
  refine List.flatMap_congr fun t _ => ?_
  rw [List.filter_map, List.map_map, List.map_map]
  have same : ((fun e : Edge => e.target.alike (f t)) ∘ Edge.along f) =
      fun e => e.target.alike t := by
    funext e
    exact hf.alike e.target t
  rw [same]
  rfl

theorem filter_along (f : Json → Json) (relation : String) (es : List Edge) :
    (es.filter fun e => e.relation.any fun r => r.alike (.string relation)).map (Edge.along f) =
      (es.map (Edge.along f)).filter fun e => e.relation.any fun r => r.alike (.string relation) := by
  rw [List.filter_map]
  rfl

/-- Where the edges by target that leave a node are those that leave another one, mapped, so are the
ends that a lookup gives. -/
theorem targets_of_leaving (directed : g'.directed = g.directed) (hx : g.has x = true)
    (hx' : g'.has x' = true)
    (edges : (g'.leaving x').map Edge.keyless = (g.leaving x).map (Edge.along f))
    (relation : String) :
    g'.targets x' relation = (g.targets x relation).map (List.map f) := by
  have related : (g'.related x' relation).map Edge.keyless =
      (g.related x relation).map (Edge.along f) := by
    rw [← Edge.along_id] at edges ⊢
    rw [TypeGraph.related, TypeGraph.related, filter_along, filter_along, edges]
  obtain ⟨fields, hfields⟩ := attributes_of_has hx
  obtain ⟨fields', hfields'⟩ := attributes_of_has hx'
  -- the position of an edge depends neither on its key nor on its ends
  let placed (e : Edge) : Except Fault (Int × Json) := do return (← Edge.position e, e.target)
  let moved (p : Int × Json) : Int × Json := (p.1, f p.2)
  have mapped (e : Edge) : placed (Edge.along f e) = (placed e).map moved := by
    show (Edge.position e >>= fun i => .ok (i, f e.target)) = _
    simp only [placed]
    cases Edge.position e <;> rfl
  have asked : (g'.related x' relation).mapM placed =
      ((g.related x relation).mapM placed).map (List.map moved) := by
    calc (g'.related x' relation).mapM placed
        = ((g'.related x' relation).map Edge.keyless).mapM placed := by rw [List.mapM_map]; rfl
      _ = (g.related x relation).mapM (placed ∘ Edge.along f) := by rw [related, List.mapM_map]
      _ = ((g.related x relation).mapM placed).map (List.map moved) := by
        rw [← mapM_map_answer]
        congr 1
        funext e
        exact mapped e
  let ordered (ps : List (Int × Json)) : List Json :=
    (ps.mergeSort fun a b => decide (a.1 ≤ b.1)).map (·.2)
  have sorting (ps : List (Int × Json)) : ordered (ps.map moved) = (ordered ps).map f := by
    simp only [ordered]
    rw [← List.map_mergeSort (r := fun a b => decide (a.1 ≤ b.1)) (fun a _ b _ => rfl),
      List.map_map, List.map_map]
    rfl
  simp only [targets, hfields, hfields', directed, bind, Except.bind]
  split
  · rfl
  · show ((g'.related x' relation).mapM placed).map ordered =
      (((g.related x relation).mapM placed).map ordered).map (List.map f)
    rw [asked]
    cases (g.related x relation).mapM placed with
    | error e => rfl
    | ok ps => exact congrArg Except.ok (sorting ps)

/-- Where the edges that leave a node are those that leave another one, mapped, so are the ends that
a lookup gives. -/
theorem targets_along (hf : Json.Faithful f) (directed : g'.directed = g.directed)
    (hx : g.has x = true) (hx' : g'.has x' = true)
    (edges : (g'.edges.filter fun e => e.source.alike x').map Edge.keyless =
      (g.edges.filter fun e => e.source.alike x).map (Edge.along f)) (relation : String) :
    g'.targets x' relation = (g.targets x relation).map (List.map f) := by
  refine targets_of_leaving directed hx hx' ?_ relation
  rw [← Edge.along_id] at edges ⊢
  rw [leaving, leaving, ← bunched_along .id, ← bunched_along hf, edges]

end TypeGraph

end PropertyMetadata
