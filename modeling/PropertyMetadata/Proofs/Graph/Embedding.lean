import Mathlib.Logic.Relation
import PropertyMetadata.Graph.Schema
import PropertyMetadata.Proofs.Circles
import PropertyMetadata.Proofs.Graph.Mapping
import PropertyMetadata.Proofs.Simulation

/-! Graphs inside other graphs. An embedding maps the nodes that can be reached from a type to nodes
of another graph, different ones to different ones, and keeps what a node is and what it is linked
to. A resolution looks at nothing else: the image of the type resolves as the type does. -/

namespace PropertyMetadata.TypeGraph

open List (Forall₂)

/-- An edge leads from one node to the other. -/
def Linked (g : TypeGraph) (x y : Json) : Prop := ∃ e ∈ g.edges, e.source = x ∧ e.target = y

/-- Edges of any relations lead from one node to the other. -/
def Reachable (g : TypeGraph) : Json → Json → Prop := Relation.ReflTransGen g.Linked

/-- A map of the nodes that can be reached from one to nodes of another graph, which keeps them
apart and keeps their kinds, texts, flags and, in order, what they are linked to. -/
structure Embedding (g g' : TypeGraph) (t : Json) (f : Json → Json) : Prop where
  injective : ∀ x y, g.Reachable t x → g.Reachable t y → f x = f y → x = y
  node : ∀ x, g.Reachable t x → g'.has (f x) = true
  kind : ∀ x, g.Reachable t x → g'.kind (f x) = g.kind x
  text : ∀ x, g.Reachable t x → Agree Eq (g.text x) (g'.text (f x))
  flags : ∀ x, g.Reachable t x → Agree Eq (g.flags x) (g'.flags (f x))
  targets : ∀ x, g.Reachable t x → ∀ relation ∈ relations,
    Agree (fun ts ts' => ts' = ts.map f) (g.targets x relation) (g'.targets (f x) relation)

variable {g g' : TypeGraph} {f : Json → Json} {t x x' : Json} {relation : String}

/-- A node with its image, or no node with no node. -/
def Paired (g : TypeGraph) (t : Json) (f : Json → Json) (x x' : Json) : Prop :=
  g.Reachable t x ∧ x' = f x ∨ x = .null ∧ x' = .null

namespace Reachable

theorem has (h : g.Reachable t x) (hw : g.Wired) (ht : g.has t = true) : g.has x = true := by
  induction h with
  | refl => exact ht
  | tail _ hlink _ =>
    obtain ⟨e, he, -, rfl⟩ := hlink
    exact hw.target e he

/-- What a node is linked to can be reached, too. -/
theorem target (h : g.Reachable t x) (hg : g.StringNamed) (hw : g.Wired) {ts : List Json}
    (hts : g.targets x relation = .ok ts) {u : Json} (hu : u ∈ ts) : g.Reachable t u := by
  obtain ⟨e, he, hl, rfl⟩ := exists_edge_of_mem_targets hg hw hts hu
  obtain ⟨s, hs⟩ := hg.string_of_has (hw.source e he)
  rw [Edge.leaves, Bool.and_eq_true, hs, Json.string_alike_iff] at hl
  exact h.tail ⟨e, he, hs.trans hl.1.symm, rfl⟩

end Reachable

namespace Embedding

/-- A map that keeps attributes and the edges that leave a node is an embedding. -/
theorem of_edges (hf : Json.Faithful f) (injective : Function.Injective f) (hw : g.Wired)
    (ht : g.has t = true) (directed : g'.directed = g.directed)
    (node : ∀ x, g.has x = true → g'.has (f x) = true ∧ g'.attributes (f x) = g.attributes x)
    (edges : ∀ x, g.has x = true → (g'.edges.filter fun e => e.source.alike (f x)).map Edge.keyless =
      (g.edges.filter fun e => e.source.alike x).map (Edge.along f)) : g.Embedding g' t f where
  injective x y _ _ hxy := injective hxy
  node x reach := (node x (reach.has hw ht)).1
  kind x reach := by
    simp only [TypeGraph.kind, (node x (reach.has hw ht)).2]
  text x reach := by
    have same := (node x (reach.has hw ht)).2
    obtain ⟨fields, hfields⟩ := attributes_of_has (reach.has hw ht)
    simp only [TypeGraph.text, same, hfields, bind, Except.bind]
    split
    · exact .fault rfl
    · exact .fault rfl
    · exact .refl _
  flags x reach := by
    simp only [TypeGraph.flags, (node x (reach.has hw ht)).2]
    exact .refl _
  targets x reach relation _ := by
    have hx := reach.has hw ht
    rw [targets_along hf directed hx (node x hx).1 (edges x hx)]
    cases g.targets x relation with
    | error e => exact .fault (.refl e)
    | ok ts => exact .ok rfl

theorem paired_targets (h : g.Embedding g' t f) (hg : g.StringNamed) (hg' : g'.StringNamed)
    (hw : g.Wired) (hx : g.Paired t f x x') (hr : relation ∈ relations) :
    Agree (Forall₂ (g.Paired t f)) (g.targets x relation) (g'.targets x' relation) := by
  rcases hx with ⟨reach, rfl⟩ | ⟨rfl, rfl⟩
  · have mapped := h.targets x reach relation hr
    generalize hts : g.targets x relation = a, g'.targets (f x) relation = b at mapped
    cases mapped with
    | fault he => exact .fault he
    | ok same =>
      subst same
      refine .ok (List.forall₂_map_right_iff.2 (List.forall₂_same.2 fun u hu => ?_))
      exact .inl ⟨reach.target hg hw hts hu, rfl⟩
  · simp only [TypeGraph.targets, attributes_eq_error hg.node?_null,
      attributes_eq_error hg'.node?_null]
    exact .fault (.refl _)

theorem paired_target? (h : g.Embedding g' t f) (hg : g.StringNamed) (hg' : g'.StringNamed)
    (hw : g.Wired) (hx : g.Paired t f x x') (hr : relation ∈ relations) :
    Agree (Option.Rel (g.Paired t f)) (g.target? x relation) (g'.target? x' relation) := by
  refine .bind (h.paired_targets hg hg' hw hx hr) ?_
  intro ts ts' hts
  cases hts with
  | nil => exact .ok .none
  | cons hu _ => exact .ok (.some hu)

/-- A question on the attributes of a node has the answer of its image. -/
theorem paired_attribute {α : Type} (ask : TypeGraph → Json → Except Fault α) (hg : g.StringNamed)
    (hg' : g'.StringNamed) (hx : g.Paired t f x x')
    (unknown : ∀ g : TypeGraph, g.node? .null = none →
      ask g .null = .error (.graph (.unknownNode .null)))
    (known : ∀ x, g.Reachable t x → Agree Eq (ask g x) (ask g' (f x))) :
    Agree Eq (ask g x) (ask g' x') := by
  rcases hx with ⟨reach, rfl⟩ | ⟨rfl, rfl⟩
  · exact known x reach
  · rw [unknown g hg.node?_null, unknown g' hg'.node?_null]
    exact .refl _

theorem paired_kindIn (h : g.Embedding g' t f) (hg : g.StringNamed) (hg' : g'.StringNamed)
    (hx : g.Paired t f x x') (kinds : List String) :
    Agree Eq (g.kindIn kinds x) (g'.kindIn kinds x') := by
  refine paired_attribute (fun g x => g.kindIn kinds x) hg hg' hx ?_ ?_
  · intro k hk
    simp [TypeGraph.kindIn, TypeGraph.kind, attributes_eq_error hk, bind, Except.bind]
  · intro y reach
    simp only [TypeGraph.kindIn, h.kind y reach]
    exact .refl _

theorem paired_hasShape (h : g.Embedding g' t f) (hg : g.StringNamed) (hg' : g'.StringNamed)
    (hw : g.Wired) (hx : g.Paired t f x x') (s : Shape) :
    Agree Eq (g.hasShape s x) (g'.hasShape s x') := by
  have kinds (ks : List String) := h.paired_kindIn hg hg' hx ks
  cases s with
  | unionOrIntersection =>
    refine .branch (kinds _) (.refl _) (.branch (kinds _) ?_ (.refl _))
    refine .bind (h.paired_targets hg hg' hw hx (by decide)) ?_
    intro ts ts' hts
    cases hts <;> exact .refl _
  | _ => exact kinds _

theorem paired_named (h : g.Embedding g' t f) (hg : g.StringNamed) (hg' : g'.StringNamed)
    (hw : g.Wired) (ht : g.has t = true) (hx : g.Paired t f x x') :
    (∃ s s', x = .string s ∧ x' = .string s') ∨ x = .null ∧ x' = .null := by
  rcases hx with ⟨reach, rfl⟩ | none
  · obtain ⟨s, hs⟩ := hg.string_of_has (reach.has hw ht)
    obtain ⟨s', hs'⟩ := hg'.string_of_has (h.node x reach)
    exact .inl ⟨s, s', hs, hs'⟩
  · exact .inr none

/-- Handles name the same type just when those that they are paired with do. -/
theorem paired_alike (h : g.Embedding g' t f) (hg : g.StringNamed) (hg' : g'.StringNamed)
    (hw : g.Wired) (ht : g.has t = true) {y y' : Json} (hx : g.Paired t f x x')
    (hy : g.Paired t f y y') : x.alike y = x'.alike y' := by
  rcases h.paired_named hg hg' hw ht hx with ⟨s, s', rfl, rfl⟩ | ⟨rfl, rfl⟩
  · rcases h.paired_named hg hg' hw ht hy with ⟨u, u', rfl, rfl⟩ | ⟨rfl, rfl⟩
    · obtain ⟨reach, hs'⟩ : g.Reachable t (.string s) ∧ _ := hx.resolve_right (by simp)
      obtain ⟨reach', hu'⟩ : g.Reachable t (.string u) ∧ _ := hy.resolve_right (by simp)
      rw [Bool.eq_iff_iff, Json.alike_string_iff, Json.alike_string_iff, hs', hu']
      exact ⟨congrArg f, h.injective _ _ reach reach'⟩
    · rfl
  · rcases h.paired_named hg hg' hw ht hy with ⟨u, u', rfl, rfl⟩ | ⟨rfl, rfl⟩ <;> rfl

theorem matches_checker (h : g.Embedding g' t f) (hg : g.StringNamed) (hg' : g'.StringNamed)
    (hw : g.Wired) (ht : g.has t = true) : g.checker.Matches g'.checker (g.Paired t f) where
  is x x' hx s := h.paired_hasShape hg hg' hw hx s
  typeArguments x x' hx := h.paired_targets hg hg' hw hx (by decide)
  members x x' hx := h.paired_targets hg hg' hw hx (by decide)
  text x x' hx := by
    refine paired_attribute TypeGraph.text hg hg' hx ?_ h.text
    intro k hk
    simp [TypeGraph.text, attributes_eq_error hk, bind, Except.bind]
  symbol x x' hx := h.paired_target? hg hg' hw hx (by decide)
  aliasSymbol x x' hx := h.paired_target? hg hg' hw hx (by decide)
  flags x x' hx := by
    refine paired_attribute TypeGraph.flags hg hg' hx ?_ h.flags
    intro k hk
    simp [TypeGraph.flags, attributes_eq_error hk, bind, Except.bind]
  parent x x' hx := h.paired_target? hg hg' hw hx (by decide)
  declaredType x x' hx := by
    refine .map (.bind (h.paired_target? hg hg' hw hx (by decide)) ?_) fun a b hab => .some hab
    intro d d' hd
    cases hd with
    | none => exact .fault rfl
    | some hd => exact .ok hd
  absent := .inr ⟨rfl, rfl⟩
  same x x' y y' hx hy := h.paired_alike hg hg' hw ht hx hy

/-- The image of a type resolves as the type does. -/
theorem resolve_agrees (h : g.Embedding g' t f) (hg : g.StringNamed) (hg' : g'.StringNamed)
    (hw : g.Wired) (ht : g.has t = true) :
    (∀ depth, Agree Resolution.Same (g.resolve depth t) (g'.resolve depth (f t))) ∧
      (g.checker.Endless t ↔ g'.checker.Endless (f t)) := by
  have matching := h.matches_checker hg hg' hw ht
  have start : g.Paired t f t (f t) := .inl ⟨.refl, rfl⟩
  have endless := matching.endless_iff start
  refine ⟨fun depth => ?_, endless⟩
  cases depth with
  | some limit => exact matching.resolve_some start _ _ limit
  | none =>
    by_cases never : g.checker.Endless t
    · rw [resolve, resolve, never.resolve_none, (endless.1 never).resolve_none]
      exact .fault rfl
    · obtain ⟨k, r, ends⟩ : ∃ k r, g.checker.Ends t k r := by simpa [Checker.Endless] using never
      obtain ⟨r', ends', agrees⟩ := matching.ends start ends
      rw [hg.resolve_of_ends ends, hg'.resolve_of_ends ends']
      exact agrees

end Embedding

end PropertyMetadata.TypeGraph
