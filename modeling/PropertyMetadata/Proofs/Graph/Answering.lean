import PropertyMetadata.Proofs.Graph.Likeness
import PropertyMetadata.Proofs.Graph.Lookup
import PropertyMetadata.Proofs.Rules

/-! Graphs that answer, whatever values name their nodes. A lookup follows the edges of all names
that are alike, and gives one of several like names for each end. As long as edges end at nodes,
indices and flags can be read, and the parents of symbols declare types, every question on a node
that an enum is recognised by has an answer, and all names in these answers are names of nodes. -/

namespace PropertyMetadata

namespace TypeGraph

open Json (Interchangeable)
open List (Forall₂)

variable {g : TypeGraph} {id x t : Json} {relation : String} {es : List Edge} {e : Edge}

/-! ### Kinds -/

theorem kindIn_of_has (h : g.has id = true) (kinds : List String) :
    ∃ b, g.kindIn kinds id = .ok b := by
  obtain ⟨fields, hf⟩ := attributes_of_has h
  simp [kindIn, kind, hf, bind, Except.bind, pure, Except.pure]

theorem kindIn_iff {kinds : List String} :
    g.kindIn kinds id = .ok true ↔ ∃ s ∈ kinds, g.kind id = .ok (.string s) := by
  rw [kindIn]
  cases g.kind id with
  | error => simp [bind, Except.bind]
  | ok k => simp [bind, Except.bind, pure, Except.pure, Json.alike_string_iff]

def IsUnion (g : TypeGraph) (id : Json) : Prop := g.kindIn ["union", "intersection"] id = .ok true

theorem has_of_isUnion (h : g.IsUnion id) : g.has id = true := by
  unfold IsUnion kindIn kind TypeGraph.attributes at h
  cases hn : g.node? id with
  | none => simp [hn, bind, Except.bind] at h
  | some n => simp [TypeGraph.has, hn]

theorem isUnion_of_shape (hu : g.hasShape .unionOrIntersection id = .ok true)
    (he : g.hasShape .enum id = .ok false) : g.IsUnion id := by
  simp only [hasShape, IsUnion, kindIn] at hu he ⊢
  cases hk : g.kind id with
  | error e => simp [hk, bind, Except.bind] at hu
  | ok k =>
    simp only [hk, bind, Except.bind, pure, Except.pure, Except.ok.injEq] at hu he ⊢
    by_contra hn
    -- no union by its kind and no enum, the node would be a union by its members, which enums have
    have noEnum : k.alike (.string "enum") = false := by
      simp only [List.any_cons, Bool.or_eq_false_iff] at he
      exact he.1
    rw [if_neg hn] at hu
    simp [noEnum] at hu

theorem isUnion_iff :
    g.IsUnion id ↔ g.kind id = .ok (.string "union") ∨ g.kind id = .ok (.string "intersection") := by
  simp [IsUnion, kindIn_iff]

/-- A union or an intersection has no other kind. -/
theorem IsUnion.kindIn_eq (h : g.IsUnion t) {kinds : List String}
    (hk : "union" ∉ kinds ∧ "intersection" ∉ kinds) : g.kindIn kinds t = .ok false := by
  obtain ⟨b, hb⟩ := kindIn_of_has (has_of_isUnion h) kinds
  cases b with
  | false => exact hb
  | true =>
    obtain ⟨s, hs, kind⟩ := kindIn_iff.1 hb
    rcases isUnion_iff.1 h with union | intersection
    · obtain rfl : s = "union" := by simpa using kind.symm.trans union
      exact absurd hs hk.1
    · obtain rfl : s = "intersection" := by simpa using kind.symm.trans intersection
      exact absurd hs hk.2

theorem IsUnion.told (h : g.IsUnion t) :
    ∀ k ∈ [Shape.array, .boolean, .number, .string], g.checker.is k t = .ok false := by
  simp only [List.forall_mem_cons]
  exact ⟨h.kindIn_eq (by decide), h.kindIn_eq (by decide), h.kindIn_eq (by decide),
    h.kindIn_eq (by decide), by simp⟩

theorem IsUnion.unionMembers_eq (h : g.IsUnion t) (hts : g.targets t "member" = .ok ts) :
    g.checker.unionMembers t = .ok ts := by
  have isUnion : g.checker.is .unionOrIntersection t = .ok true := by
    have union : g.kindIn ["union", "intersection"] t = .ok true := h
    simp only [checker, hasShape, union, bind, Except.bind, pure, Except.pure]
    rfl
  have enum : g.checker.is .enum t = .ok false := h.kindIn_eq (by decide)
  have members : g.checker.members t = .ok ts := hts
  simp [Checker.unionMembers, isUnion, enum, members, bind, Except.bind]

/-! ### Lookups -/

/-- Edges that are brought together are edges from before, with like targets from before. -/
theorem exists_of_mem_bunched (h : e ∈ bunched es) :
    ∃ e₀ ∈ es, e = { e₀ with target := e.target } ∧ e₀.target.alike e.target = true ∧
      ∃ e₁ ∈ es, e₁.target = e.target := by
  obtain ⟨t, ht, he⟩ := List.mem_flatMap.1 h
  obtain ⟨e₀, he₀, rfl⟩ := List.mem_map.1 he
  obtain ⟨hmem, alike⟩ := List.mem_filter.1 he₀
  exact ⟨e₀, hmem, rfl, alike, (mem_distinctTargets ht).1⟩

theorem exists_mem_bunched (hs : ∀ e ∈ es, e.target.alike e.target = true) (he : e ∈ es) :
    ∃ t, { e with target := t } ∈ bunched es := by
  rcases distinctTargets_covers hs [] he with none | ⟨t, ht, alike⟩
  · cases none
  · exact ⟨t, List.mem_flatMap.2 ⟨t, ht, List.mem_map.2 ⟨e, List.mem_filter.2 ⟨he, alike⟩, rfl⟩⟩⟩

/-- A graph whose edges end at nodes, whose indices and flags can be read, and in which every parent
declares a type. -/
structure Answering (g : TypeGraph) : Prop where
  directed : g.directed = true
  target : ∀ e ∈ g.edges, g.has e.target = true
  placed : ∀ e ∈ g.edges, ∃ i, Edge.position e = .ok i
  flags : ∀ id, g.has id = true → ∃ f, g.flags id = .ok f
  declared : ∀ e ∈ g.edges, e.relation = some (.string "parent") →
    ∃ e' ∈ g.edges, e'.leaves e.target "declared_type" = true

/-- Flags can be read where the records of nodes give flags that can be. -/
theorem flags_of_has (hf : ∀ n ∈ g.nodes, ∃ f,
      Flags.ofRecord ((Json.lookup n.attributes "flags").getD (.string "")) = .ok f)
    (h : g.has id = true) : ∃ f, g.flags id = .ok f := by
  obtain ⟨n, hn⟩ := Option.isSome_iff_exists.1 h
  obtain ⟨f, hf⟩ := hf n (mem_of_node? hn)
  exact ⟨f, by rw [TypeGraph.flags, attributes_of_node? hn]; exact hf⟩

namespace Answering

theorem exists_of_mem_related (ha : g.Answering) (h : e ∈ g.related id relation) :
    ∃ e₀ ∈ g.edges, e₀.leaves id relation = true ∧ e₀.index = e.index ∧
      e.target.alike e₀.target = true ∧ g.has e.target = true := by
  obtain ⟨hmem, hrel⟩ := List.mem_filter.1 h
  obtain ⟨e₀, he₀, heq, alike, e₁, he₁, same⟩ := exists_of_mem_bunched hmem
  obtain ⟨hedge, leaves⟩ := List.mem_filter.1 he₀
  have node : g.has e.target = true := same ▸ ha.target e₁ (List.mem_filter.1 he₁).1
  rw [heq] at hrel
  refine ⟨e₀, hedge, by rw [Edge.leaves, leaves, hrel]; rfl, by rw [heq], ?_, node⟩
  exact (has_alike_iff node).2 ((alike_iff_of_has node).1 alike)

theorem exists_mem_related (ha : g.Answering) (he : e ∈ g.edges)
    (h : e.leaves id relation = true) : ∃ t, { e with target := t } ∈ g.related id relation := by
  obtain ⟨source, hrel⟩ := Bool.and_eq_true_iff.1 h
  have self : ∀ e ∈ g.edges.filter (fun e => e.source.alike id), e.target.alike e.target = true :=
    fun e he => alike_self (ha.target e (List.mem_filter.1 he).1)
  obtain ⟨t, ht⟩ := exists_mem_bunched self (List.mem_filter.2 ⟨he, source⟩)
  exact ⟨t, List.mem_filter.2 ⟨ht, hrel⟩⟩

theorem targets_perm (ha : g.Answering) (h : g.has id = true) (relation : String) :
    ∃ ts, g.targets id relation = .ok ts ∧ ts.Perm ((g.related id relation).map Edge.target) := by
  obtain ⟨fields, hf⟩ := attributes_of_has h
  have each : ∀ e ∈ g.related id relation, ∃ i, Edge.position e = .ok i := by
    intro e he
    obtain ⟨e₀, he₀, -, index, -⟩ := ha.exists_of_mem_related he
    obtain ⟨i, hi⟩ := ha.placed e₀ he₀
    exact ⟨i, by rwa [Edge.position, ← index]⟩
  choose! place hplace using each
  have placed : ∀ e ∈ g.related id relation,
      (do return (← Edge.position e, e.target) : Except Fault (Int × Json)) =
        .ok (place e, e.target) := by
    intro e he
    rw [hplace e he]
    rfl
  refine ⟨(((g.related id relation).map fun e => (place e, e.target)).mergeSort
    fun a b => decide (a.1 ≤ b.1)).map (·.2), ?_, ?_⟩
  · simp only [targets, hf, ha.directed, bind, Except.bind, pure, Except.pure] at placed ⊢
    rw [mapM_eq_ok placed]
    rfl
  · have := (List.mergeSort_perm ((g.related id relation).map fun e => (place e, e.target))
      fun a b => decide (a.1 ≤ b.1)).map (·.2)
    rwa [List.map_map] at this

theorem targets_ok (ha : g.Answering) (h : g.has id = true) (relation : String) :
    ∃ ts, g.targets id relation = .ok ts ∧ ∀ t ∈ ts, g.has t = true := by
  obtain ⟨ts, hts, perm⟩ := ha.targets_perm h relation
  refine ⟨ts, hts, fun t ht => ?_⟩
  obtain ⟨e, he, rfl⟩ := List.mem_map.1 (perm.subset ht)
  obtain ⟨-, -, -, -, -, node⟩ := ha.exists_of_mem_related he
  exact node

/-- The first end, if there is one, is a node and a name for the end of an edge. -/
theorem target?_cases (ha : g.Answering) (h : g.has id = true) (relation : String) :
    g.target? id relation = .ok none ∧ (∀ e ∈ g.edges, e.leaves id relation = false) ∨
      ∃ t, g.target? id relation = .ok (some t) ∧ g.has t = true ∧
        ∃ e ∈ g.edges, e.leaves id relation = true ∧ t.alike e.target = true := by
  obtain ⟨ts, hts, perm⟩ := ha.targets_perm h relation
  cases ts with
  | nil =>
    refine .inl ⟨by simp [target?, hts, bind, Except.bind, pure, Except.pure], fun e he => ?_⟩
    rw [Bool.eq_false_iff]
    intro leaves
    obtain ⟨t, ht⟩ := ha.exists_mem_related he leaves
    simpa using perm.symm.subset (List.mem_map_of_mem ht)
  | cons t ts =>
    obtain ⟨e, he, rfl⟩ := List.mem_map.1 (perm.subset List.mem_cons_self)
    obtain ⟨e₀, he₀, leaves, -, alike, node⟩ := ha.exists_of_mem_related he
    exact .inr ⟨e.target, by simp [target?, hts, bind, Except.bind, pure, Except.pure], node,
      e₀, he₀, leaves, alike⟩

/-- A parent declares a type, which is a node. -/
theorem declaredType_of_parent (ha : g.Answering) (he : e ∈ g.edges)
    (hp : e.relation = some (.string "parent")) (ht : t.alike e.target = true) :
    ∃ d, g.declaredType t = .ok d ∧ g.has d = true := by
  obtain ⟨e', he', leaves⟩ := ha.declared e he hp
  have same := interchangeable_of_has (ha.target e he) ht
  have node : g.has t = true := by
    rw [TypeGraph.has, node?_interchange same]
    exact ha.target e he
  rcases ha.target?_cases node "declared_type" with ⟨-, none⟩ | ⟨d, hd, known, -⟩
  · rw [Edge.leaves, ← same.right] at leaves
    cases (none e' he').symm.trans leaves
  · exact ⟨d, by simp [declaredType, hd, bind, Except.bind, pure, Except.pure], known⟩

/-- Of every node it can be said what enum it is a member of. -/
theorem enumOfMember_cases (ha : g.Answering) (h : g.has t = true) :
    g.checker.enumOfMember t = .ok none ∨
      ∃ d, g.checker.enumOfMember t = .ok (some (some d)) ∧ g.has d = true := by
  rcases ha.target?_cases h "symbol" with ⟨none, -⟩ | ⟨s, symbol, node, -⟩
  · exact .inl (Checker.enumOfMember_none none (by simp))
  · rcases ha.target?_cases node "parent" with ⟨none, -⟩ | ⟨p, parent, -, e, he, leaves, alike⟩
    · refine .inl (Checker.enumOfMember_none symbol fun q hq => ?_)
      obtain rfl := Option.some.inj hq
      exact .inl none
    · obtain ⟨f, hf⟩ := ha.flags s node
      obtain ⟨d, hd, node'⟩ := ha.declaredType_of_parent he (Edge.relation_of_leaves leaves) alike
      by_cases member : f = .enumMember
      · have declared : g.checker.declaredType p = .ok (some d) := by
          show (g.declaredType p).map some = _
          rw [hd]
          rfl
        exact .inr ⟨d, Checker.enumOfMember_literal symbol parent (member ▸ hf) declared, node'⟩
      · refine .inl (Checker.enumOfMember_none symbol fun q hq => ?_)
        obtain rfl := Option.some.inj hq
        exact .inr ⟨p, f, parent, hf, member⟩

/-- Two names of the enums that nodes are members of are the same just when they are alike. -/
theorem keyed (ha : g.Answering) {ts : List Json} (h : ∀ t ∈ ts, g.has t = true) :
    g.checker.Keyed Json.name? (fun e => g.has e = true) ts where
  tells _ _ hd _ := (has_alike_iff hd).trans eq_comm
  enum t ht := ha.enumOfMember_cases (h t ht)

/-! ### Shapes -/

/-- Of every node it can be said whether it has a shape. -/
theorem hasShape_ok (ha : g.Answering) (h : g.has t = true) (k : Shape) :
    ∃ b, g.hasShape k t = .ok b := by
  cases k with
  | unionOrIntersection =>
    obtain ⟨union, hu⟩ := kindIn_of_has h ["union", "intersection"]
    obtain ⟨enum, he⟩ := kindIn_of_has h ["enum"]
    obtain ⟨ts, hts, -⟩ := ha.targets_ok h "member"
    simp only [hasShape, hu, he, hts, bind, Except.bind, pure, Except.pure]
    cases union <;> cases enum <;> exact ⟨_, rfl⟩
  | _ => exact kindIn_of_has h _

/-- The members that count are members of a union, or there are none. -/
theorem unionMembers_cases (ha : g.Answering) (h : g.has t = true) :
    g.checker.unionMembers t = .ok [] ∨ ∃ ts, g.checker.unionMembers t = .ok ts ∧
      g.IsUnion t ∧ g.targets t "member" = .ok ts ∧ ∀ u ∈ ts, g.has u = true := by
  obtain ⟨union, hu⟩ := ha.hasShape_ok h .unionOrIntersection
  obtain ⟨enum, he⟩ := ha.hasShape_ok h .enum
  obtain ⟨ts, hts, nodes⟩ := ha.targets_ok h "member"
  have members : g.checker.unionMembers t = if union && !enum then .ok ts else .ok [] := by
    simp only [Checker.unionMembers, checker, hu, he, hts, bind, Except.bind, pure, Except.pure]
    cases union <;> cases enum <;> rfl
  cases union with
  | false => exact .inl members
  | true =>
    cases enum with
    | true => exact .inl members
    | false => exact .inr ⟨ts, members, isUnion_of_shape hu he, hts, nodes⟩

end Answering

end TypeGraph

end PropertyMetadata
