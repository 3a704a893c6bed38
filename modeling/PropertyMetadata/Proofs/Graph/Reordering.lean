import Mathlib.Data.List.Forall2
import PropertyMetadata.Proofs.Graph.Loading
import PropertyMetadata.Proofs.Graph.Regular

/-! Giving the members of unions other places. Where only the indices of the members of unions and
intersections differ, two schemas are both accepted, and their graphs look up the same but for the
order of these members. So every type resolves to the same. -/

namespace PropertyMetadata

open List (Forall₂)

/-- An edge as it is, or a member of a node of some kind at another place. -/
inductive Edge.Moved (movable : Json → Prop) : Edge → Edge → Prop
  | same (e : Edge) : Moved movable e e
  | member (e : Edge) (i : Int) : e.relation = some (.string "member") → movable e.source →
    Moved movable e { e with index := some (.int i) }

namespace Edge.Moved

variable {movable : Json → Prop} {e e' : Edge}

theorem source (h : Moved movable e e') : e'.source = e.source := by
  cases h <;> rfl

theorem target (h : Moved movable e e') : e'.target = e.target := by
  cases h <;> rfl

theorem key (h : Moved movable e e') : e'.key = e.key := by
  cases h <;> rfl

theorem relation (h : Moved movable e e') : e'.relation = e.relation := by
  cases h <;> rfl

theorem withTarget (h : Moved movable e e') (t : Json) :
    Moved movable { e with target := t } { e' with target := t } := by
  cases h with
  | same => exact .same _
  | member i hr hm => exact .member _ i hr hm

end Edge.Moved

namespace TypeGraph

variable {movable : Json → Prop} {g g' : TypeGraph} {id t : Json} {relation : String}
  {es es' : List Edge}

/-! ### Lookups -/

theorem distinctTargets_moved (h : Forall₂ (Edge.Moved movable) es es') (seen : List Json) :
    distinctTargets seen es' = distinctTargets seen es := by
  induction h generalizing seen with
  | nil => rfl
  | cons hm _ ih => simp only [distinctTargets, hm.target, ih]

theorem bunched_moved (h : Forall₂ (Edge.Moved movable) es es') :
    Forall₂ (Edge.Moved movable) (bunched es) (bunched es') := by
  unfold bunched
  rw [distinctTargets_moved h]
  refine List.rel_flatMap (List.forall₂_same.2 fun t _ => rfl) ?_
  rintro t _ rfl
  refine List.rel_map (fun e e' hm => hm.withTarget t) (List.rel_filter ?_ h)
  intro e e' hm
  simp only [hm.target]

/-- A graph whose edges are those of another one, some members moved. -/
structure Rearranged (movable : Json → Prop) (g g' : TypeGraph) : Prop where
  directed : g'.directed = g.directed
  nodes : g'.nodes = g.nodes
  edges : Forall₂ (Edge.Moved movable) g.edges g'.edges

namespace Rearranged

theorem related (h : Rearranged movable g g') (id : Json) (relation : String) :
    Forall₂ (Edge.Moved movable) (g.related id relation) (g'.related id relation) := by
  refine List.rel_filter ?_ (bunched_moved (List.rel_filter ?_ h.edges))
  · intro e e' hm
    simp only [hm.relation]
  · intro e e' hm
    simp only [hm.source]

theorem related_eq (h : Rearranged movable g g')
    (fixed : ∀ e ∈ g.related id relation, e.relation = some (.string "member") →
      ¬ movable e.source) : g'.related id relation = g.related id relation := by
  have pairs := (List.forall₂_and_left _ _).2 ⟨fixed, h.related id relation⟩
  have same : Forall₂ (· = ·) (g.related id relation) (g'.related id relation) := by
    refine pairs.imp fun e e' he => ?_
    obtain ⟨hfixed, hm⟩ := he
    cases hm with
    | same => rfl
    | member i hr hmov => exact absurd hmov (hfixed hr)
  exact (List.forall₂_eq_eq_eq ▸ same).symm

theorem attributes (h : Rearranged movable g g') : g'.attributes = g.attributes := by
  funext id
  simp only [TypeGraph.attributes, node?, h.nodes]

theorem kindIn (h : Rearranged movable g g') : g'.kindIn = g.kindIn := kindIn_congr h.attributes

theorem targets_eq_of_related_eq (h : Rearranged movable g g')
    (hr : g'.related id relation = g.related id relation) :
    g'.targets id relation = g.targets id relation := by
  simp only [targets, h.attributes, h.directed, hr]

/-- Only lookups of members can differ. -/
theorem targets_eq (h : Rearranged movable g g') (hne : relation ≠ "member") :
    g'.targets id relation = g.targets id relation := by
  refine h.targets_eq_of_related_eq (h.related_eq fun e he hr => absurd ?_ hne)
  have := (List.mem_filter.1 he).2
  rw [hr, Option.any_some, Json.alike_string_iff, Json.string.injEq] at this
  exact this.symm

theorem targets_eq_of_not_movable (h : Rearranged movable g g') (hg : g.StringNamed) (hw : g.Wired)
    (hm : ¬ movable id) : g'.targets id "member" = g.targets id "member" := by
  refine h.targets_eq_of_related_eq (h.related_eq fun e he _ hmov => hm ?_)
  obtain ⟨hmem, hl⟩ := List.mem_filter.1 ((related_perm hg hw id "member").mem_iff.1 he)
  obtain ⟨s, hs⟩ := hg.string_of_has (hw.source e hmem)
  rw [Edge.leaves, Bool.and_eq_true, hs, Json.string_alike_iff] at hl
  rwa [hs, ← hl.1] at hmov

theorem indexed (h : Rearranged movable g g') (hi : g.Indexed) : g'.Indexed := by
  have all {es es' : List Edge} (hes : Forall₂ (Edge.Moved movable) es es')
      (hi : ∀ e ∈ es, e.Indexed) : ∀ e ∈ es', e.Indexed := by
    induction hes with
    | nil => simp
    | cons hm _ ih =>
      obtain ⟨head, tail⟩ := List.forall_mem_cons.1 hi
      refine List.forall_mem_cons.2 ⟨?_, ih tail⟩
      cases hm with
      | same => exact head
      | member i => exact ⟨i, rfl⟩
  exact all h.edges hi

/-- Lookups of members give the same nodes, perhaps in another order. -/
theorem targets_perm (h : Rearranged movable g g') (hg : g.StringNamed) (hi : g.Indexed)
    (hw : g.Wired) (hw' : g'.Wired) (hid : g.has id = true) (relation : String) :
    ∃ ts ts', g.targets id relation = .ok ts ∧ g'.targets id relation = .ok ts' ∧ ts'.Perm ts ∧
      ∀ t ∈ ts, g.has t = true := by
  have hg' : g'.StringNamed := by rwa [StringNamed, h.nodes]
  have hid' : g'.has id = true := by rwa [TypeGraph.has, node?, h.nodes]
  obtain ⟨ts, hts, perm⟩ := TypeGraph.targets_perm hg hw hi hid relation
  obtain ⟨ts', hts', perm'⟩ := TypeGraph.targets_perm hg' hw' (h.indexed hi) hid' relation
  have ends : (g'.edges.filter (Edge.leaves id relation)).map Edge.target =
      (g.edges.filter (Edge.leaves id relation)).map Edge.target := by
    have leaving : Forall₂ (Edge.Moved movable) (g.edges.filter (Edge.leaves id relation))
        (g'.edges.filter (Edge.leaves id relation)) := by
      refine List.rel_filter ?_ h.edges
      intro e e' hm
      simp only [Edge.leaves, hm.source, hm.relation]
    have same : Forall₂ (· = ·) _ _ :=
      List.rel_map (fun _ _ hm => Edge.Moved.target hm) leaving.flip
    exact List.forall₂_eq_eq_eq ▸ same
  refine ⟨ts, ts', hts, hts', perm'.trans (ends ▸ perm.symm), fun t ht => ?_⟩
  obtain ⟨e, he, rfl⟩ := List.mem_map.1 (perm.subset ht)
  exact hw.target e (List.mem_filter.1 he).1

end Rearranged

/-! ### Resolutions -/

/-- No union or intersection has two different undefined members. -/
def OneUndefined (g : TypeGraph) : Prop :=
  ∀ id, g.IsUnion id → ∀ ts, g.targets id "member" = .ok ts → g.checker.OneUndefined ts

theorem Rearranged.hasShape (h : Rearranged g.IsUnion g g') (hg : g.StringNamed) (hw : g.Wired) :
    g'.hasShape = g.hasShape := by
  funext s id
  cases s with
  | unionOrIntersection =>
    simp only [TypeGraph.hasShape, h.kindIn]
    cases hu : g.kindIn ["union", "intersection"] id with
    | error e => rfl
    | ok union =>
      cases union with
      | true => rfl
      | false =>
        rw [h.targets_eq_of_not_movable hg hw]
        simp [IsUnion, hu]
  | _ => simp only [TypeGraph.hasShape, h.kindIn]

theorem Rearranged.checker_eq (h : Rearranged g.IsUnion g g') (hg : g.StringNamed) (hw : g.Wired) :
    g'.checker = g.checker.withMembers fun id => g'.targets id "member" := by
  have target (relation : String) (hne : relation ≠ "member") (id : Json) :
      g'.target? id relation = g.target? id relation := by
    simp only [target?, h.targets_eq hne]
  have text : g'.text = g.text := text_congr h.attributes
  have flags : g'.flags = g.flags := flags_congr h.attributes
  have declared : g'.declaredType = g.declaredType := by
    funext id
    simp only [declaredType, target "declared_type" (by decide)]
  simp only [checker, Checker.withMembers, h.hasShape hg hw, text, flags, declared,
    h.targets_eq (show "type_argument" ≠ "member" by decide), target "symbol" (by decide),
    target "alias_symbol" (by decide), target "parent" (by decide)]

/-- Every type resolves to the same with the members of unions at other places. -/
theorem Rearranged.resolve_eq (h : Rearranged g.IsUnion g g') (hr : g.Regular) (hw : g.Wired)
    (hw' : g'.Wired) (hu : g.OneUndefined) (depth : Option Int) (id : Json) :
    g'.resolve depth id = g.resolve depth id := by
  have shuffles (t : Json) : g.checker.Shuffles (fun id => g'.targets id "member") t := by
    intro union noEnum
    have hunion := isUnion_of_shape union noEnum
    obtain ⟨ts, ts', hts, hts', perm, nodes⟩ :=
      h.targets_perm hr.named hr.indexed hw hw' (has_of_isUnion hunion) "member"
    exact ⟨ts, ts', hts, hts', perm, hr.settled hw nodes, hu t hunion ts hts⟩
  unfold TypeGraph.resolve
  rw [h.nodes, h.checker_eq hr.named hw]
  exact Checker.resolve_congr (fun t => Checker.step_withMembers (shuffles t)) _ depth id

/-! ### Schemas -/

variable {record record' schema schema' : Json} {k : TypeGraph}

/-- An edge record as it is, or that of a member of a node of some kind with another index. -/
inductive RecordMoved (movable : Json → Prop) : Json → Json → Prop
  | same (record : Json) : RecordMoved movable record record
  | member (fields : List (String × Json)) (source : Json) (i : Int) :
    Json.lookup fields "from" = some source → movable source →
    recordRelation (.object fields) = .string "member" →
    RecordMoved movable (.object fields) (.object (Json.insert fields "index" (.int i)))

/-- A schema with other indices for members of unions and intersections of a graph. -/
structure Reordered (g : TypeGraph) (schema schema' : Json) : Prop where
  nodes : records schema' "nodes" = records schema "nodes"
  edges : ∃ rs rs', records schema "edges" = .ok rs ∧ records schema' "edges" = .ok rs' ∧
    Forall₂ (RecordMoved g.IsUnion) rs rs'

namespace Rearranged

theorem has_eq (h : Rearranged movable g g') : g'.has = g.has := by
  funext id
  simp only [TypeGraph.has, node?, h.nodes]

theorem newKey_eq (h : Rearranged movable g g') (source target : Json) :
    g'.newKey source target = g.newKey source target := by
  have keys : (g'.edges.filter (g'.joins source target)).map Edge.key =
      (g.edges.filter (g.joins source target)).map Edge.key := by
    have joined : Forall₂ (Edge.Moved movable) (g.edges.filter (g.joins source target))
        (g'.edges.filter (g'.joins source target)) := by
      refine List.rel_filter ?_ h.edges
      intro e e' hm
      simp only [joins, hm.source, hm.target, h.directed]
    have same : Forall₂ (· = ·) _ _ := List.rel_map (fun _ _ hm => Edge.Moved.key hm) joined.flip
    exact List.forall₂_eq_eq_eq ▸ same
  simp only [newKey, keys]

/-- New edges that differ at most by the place of a member keep graphs rearranged. -/
theorem addEdge (h : Rearranged movable g g') (hw : g.Wired) (hw' : g'.Wired)
    {source target : Json} {relation index index' : Option Json}
    (hm : ∀ key, Edge.Moved movable ⟨source, target, key, relation, index⟩
      ⟨source, target, key, relation, index'⟩) :
    Rearranged movable (g.addEdge source target none relation index)
      (g'.addEdge source target none relation index') := by
  rw [hw.addEdge_eq, hw'.addEdge_eq, h.newKey_eq]
  exact ⟨h.directed, h.nodes, List.rel_append h.edges (.cons (hm _) .nil)⟩

theorem addEdgeRecord (h : Rearranged movable g g') (hw : g.Wired) (hw' : g'.Wired)
    (hm : RecordMoved movable record record') (hk : addEdgeRecord g record = .ok k) :
    ∃ k', TypeGraph.addEdgeRecord g' record' = .ok k' ∧ Rearranged movable k k' := by
  obtain ⟨source, target, hfrom, hto, hs, ht, hr, rfl⟩ := addEdgeRecord_eq_ok_iff.1 hk
  rw [← h.has_eq] at hs ht
  cases hm with
  | same =>
    exact ⟨_, addEdgeRecord_eq_ok_iff.2 ⟨source, target, hfrom, hto, hs, ht, hr, rfl⟩,
      h.addEdge hw hw' fun key => .same _⟩
  | member fields source' i hsource hmov hmember =>
    obtain rfl : source' = source := by simpa [Json.required, hsource] using hfrom
    have relation : recordRelation (.object (Json.insert fields "index" (.int i))) =
        recordRelation (.object fields) := by
      simp [recordRelation, Json.field?, Json.lookup_insert]
    have index : recordIndex (.object (Json.insert fields "index" (.int i))) = .int i := by
      simp [recordIndex, Json.field?, Json.lookup_insert]
    refine ⟨_, addEdgeRecord_eq_ok_iff.2 ⟨source', target, ?_, ?_, hs, ht, ?_, rfl⟩, ?_⟩
    · simpa [Json.required, Json.lookup_insert] using hfrom
    · simpa [Json.required, Json.lookup_insert] using hto
    · rwa [relation]
    · rw [relation, index]
      exact h.addEdge hw hw' fun key => .member _ i (by rw [hmember]) hmov

theorem foldlM {rs rs' : List Json} (h : Rearranged movable g g') (hw : g.Wired) (hw' : g'.Wired)
    (hm : Forall₂ (RecordMoved movable) rs rs')
    (hk : rs.foldlM TypeGraph.addEdgeRecord g = .ok k) :
    ∃ k', rs'.foldlM TypeGraph.addEdgeRecord g' = .ok k' ∧ Rearranged movable k k' := by
  induction hm generalizing g g' with
  | nil =>
    obtain rfl := Except.ok.inj hk
    exact ⟨g', rfl, h⟩
  | cons hm _ ih =>
    rw [List.foldlM_cons, bind_eq_ok_iff] at hk
    obtain ⟨g₁, h₁, hk⟩ := hk
    obtain ⟨g₁', h₁', moved⟩ := h.addEdgeRecord hw hw' hm h₁
    obtain ⟨k', hk', all⟩ := ih moved (hw.addEdgeRecord h₁) (hw'.addEdgeRecord h₁') hk
    refine ⟨k', ?_, all⟩
    rw [List.foldlM_cons, bind_eq_ok_iff]
    exact ⟨g₁', h₁', hk'⟩

end Rearranged

/-- With other indices for members an accepted schema is accepted, and gives a graph in which only
members lie at other places. -/
theorem ofSchema_rearranged (h : ofSchema schema = .ok g) (hr : Reordered g schema schema') :
    ∃ g', ofSchema schema' = .ok g' ∧ Rearranged g.IsUnion g g' := by
  obtain ⟨nodes, bare, rs, hn, hb, he, hg⟩ := ofSchema_eq_ok_iff.1 h
  obtain ⟨rs₀, rs', he₀, he', moved⟩ := hr.edges
  obtain rfl : rs = rs₀ := Except.ok.inj (he.symm.trans he₀)
  have start : Rearranged g.IsUnion bare bare :=
    ⟨rfl, rfl, List.forall₂_same.2 fun e _ => .same e⟩
  obtain ⟨g', hg', rearranged⟩ := start.foldlM (bare_wired hb) (bare_wired hb) moved hg
  exact ⟨g', ofSchema_eq_ok_iff.2 ⟨nodes, bare, rs', hr.nodes.trans hn, hb, he', hg'⟩, rearranged⟩

/-- The order of members does not matter. Other indices for members of unions and intersections
make an accepted schema of a regular graph into an accepted schema in which every type resolves to
the same, if no union has two different undefined members. -/
theorem resolve_reordered (h : ofSchema schema = .ok g) (hr : g.Regular) (hu : g.OneUndefined)
    (ho : Reordered g schema schema') :
    ∃ g', ofSchema schema' = .ok g' ∧ ∀ depth id, g'.resolve depth id = g.resolve depth id := by
  obtain ⟨g', hg', rearranged⟩ := ofSchema_rearranged h ho
  exact ⟨g', hg', rearranged.resolve_eq hr (ofSchema_wired h) (ofSchema_wired hg') hu⟩

def optionalText (none text : Int) : Json := .object [
  ("nodes", .array [
    .object [("id", .string "maybe"), ("kind", .string "union"), ("text", .string "Maybe")],
    .object [("id", .string "none"), ("kind", .string "undefined"), ("text", .string "undefined")],
    .object [("id", .string "text"), ("kind", .string "string")]]),
  ("edges", .array [
    .object [("from", .string "maybe"), ("to", .string "none"), ("relation", .string "member"),
      ("index", .int none)],
    .object [("from", .string "maybe"), ("to", .string "text"), ("relation", .string "member"),
      ("index", .int text)]])]

def optionalGraph : TypeGraph where
  directed := true
  nodes := [
    ⟨.string "maybe", [("kind", .string "union"), ("text", .string "Maybe"),
      ("category", .string "type")]⟩,
    ⟨.string "none", [("kind", .string "undefined"), ("text", .string "undefined"),
      ("category", .string "type")]⟩,
    ⟨.string "text", [("kind", .string "string"), ("category", .string "type")]⟩]
  edges := [
    ⟨.string "maybe", .string "none", .int 0, some (.string "member"), some (.int 0)⟩,
    ⟨.string "maybe", .string "text", .int 0, some (.string "member"), some (.int 1)⟩]

/-- With the members the other way round the string is still what remains of the union. -/
theorem resolve_optionalText : optionalGraph.Regular ∧ optionalGraph.OneUndefined ∧
    ∃ g', ofSchema (optionalText 1 0) = .ok g' ∧
      g'.resolve none (.string "maybe") = .ok (.descriptor .string) := by
  have named : optionalGraph.StringNamed := by simp [StringNamed, optionalGraph]
  have regular : optionalGraph.Regular := by
    refine ⟨named, by simp [Indexed, Edge.Indexed, optionalGraph], ?_, by simp [optionalGraph]⟩
    intro n hn
    simp only [optionalGraph, List.mem_cons, List.not_mem_nil, or_false] at hn
    rcases hn with rfl | rfl | rfl <;> exact ⟨.none, rfl⟩
  have single : optionalGraph.OneUndefined := by
    have only (t : Json) (h : optionalGraph.kindIn ["undefined"] t = .ok true) :
        t = .string "none" := by
      cases hn : optionalGraph.node? t with
      | none => simp [kindIn, kind, TypeGraph.attributes, hn, bind, Except.bind] at h
      | some n =>
        obtain ⟨hmem, rfl, -⟩ := named.node?_eq_some hn
        simp only [optionalGraph, List.mem_cons, List.not_mem_nil, or_false] at hmem
        rcases hmem with rfl | rfl | rfl
        · cases h
        · rfl
        · cases h
    intro id _ ts _ t _ u _ ht hu
    exact (only t ht).trans (only u hu).symm
  have reordered : Reordered optionalGraph (optionalText 0 1) (optionalText 1 0) :=
    ⟨rfl, _, _, rfl, rfl, .cons (.member _ (.string "maybe") 1 rfl rfl rfl)
      (.cons (.member _ (.string "maybe") 0 rfl rfl rfl) .nil)⟩
  obtain ⟨g', hg', same⟩ := resolve_reordered (by rfl) regular single reordered
  have first : optionalGraph.resolve none (.string "maybe") = .ok (.descriptor .string) := by cbv
  exact ⟨regular, single, g', hg', (same _ _).trans first⟩

end TypeGraph

end PropertyMetadata
