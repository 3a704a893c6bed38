import PropertyMetadata.Proofs.Circles
import PropertyMetadata.Proofs.Simulation

/-! Names that are alike. Every graph takes one of several interchangeable names for another,
whatever it is asked. So a resolution takes no more steps than a graph has nodes, whatever their
names are. -/

namespace PropertyMetadata

open List (Forall₂)

namespace TypeGraph

open Json (Interchangeable)

variable {g : TypeGraph} {t u : Json} {n : Node} {k : Nat} {r : Except Fault Resolution}

theorem related_interchange (h : Interchangeable t u) (relation : String) :
    g.related t relation = g.related u relation := by
  simp only [related, leaving, h.right]

/-! ### Questions on interchangeable names -/

variable (g)

theorem attributes_interchange (h : Interchangeable t u) :
    Agree Eq (g.attributes t) (g.attributes u) := by
  rw [attributes, attributes, node?_interchange h]
  cases g.node? u with
  | some n => exact .refl _
  | none => exact .fault rfl

theorem kindIn_interchange (h : Interchangeable t u) (kinds : List String) :
    Agree Eq (g.kindIn kinds t) (g.kindIn kinds u) :=
  .bind_congr (.bind_congr (g.attributes_interchange h))

theorem targets_interchange (h : Interchangeable t u) (relation : String) :
    Agree Eq (g.targets t relation) (g.targets u relation) := by
  unfold targets
  rw [related_interchange h]
  exact .bind_congr (g.attributes_interchange h)

theorem hasShape_interchange (h : Interchangeable t u) (s : Shape) :
    Agree Eq (g.hasShape s t) (g.hasShape s u) := by
  cases s with
  | unionOrIntersection =>
    have members := g.targets_interchange h "member"
    exact .branch (g.kindIn_interchange h _) (.refl _)
      (.branch (g.kindIn_interchange h _) (.bind_congr members) (.refl _))
  | _ => exact g.kindIn_interchange h _

theorem text_interchange (h : Interchangeable t u) : Agree Eq (g.text t) (g.text u) := by
  refine .bind (g.attributes_interchange h) ?_
  rintro fields _ rfl
  -- the one fault names the node, each side in its own way
  split
  · exact .fault rfl
  · exact .fault rfl
  · exact .refl _

theorem declaredType_interchange (h : Interchangeable t u) :
    Agree Eq (g.declaredType t) (g.declaredType u) := by
  refine .bind (.bind_congr (g.targets_interchange h "declared_type")) ?_
  rintro declared _ rfl
  cases declared with
  | some d => exact .refl _
  | none => exact .fault rfl

/-- A graph gives one answer to a question on either of two interchangeable names. -/
theorem matches_interchange : g.checker.Matches g.checker Interchangeable := by
  have targets {t u : Json} (h : Interchangeable t u) (relation : String) :
      Agree (Forall₂ Interchangeable) (g.targets t relation) (g.targets u relation) := by
    refine (g.targets_interchange h relation).imp ?_
    rintro ts _ rfl
    exact List.forall₂_same.2 fun t _ => .refl t
  have target {t u : Json} (h : Interchangeable t u) (relation : String) :
      Agree (Option.Rel Interchangeable) (g.target? t relation) (g.target? u relation) := by
    refine .bind (targets h relation) fun ts us hts => ?_
    cases hts with
    | nil => exact .ok .none
    | cons ht _ => exact .ok (.some ht)
  exact {
    is := fun _ _ h s => g.hasShape_interchange h s
    typeArguments := fun _ _ h => targets h _
    members := fun _ _ h => targets h _
    text := fun _ _ h => g.text_interchange h
    symbol := fun _ _ h => target h _
    aliasSymbol := fun _ _ h => target h _
    flags := fun _ _ h => .bind_congr (g.attributes_interchange h)
    parent := fun _ _ h => target h _
    declaredType := fun _ _ h => by
      refine (g.declaredType_interchange h).map ?_
      rintro d _ rfl
      exact .some (.refl d)
    absent := .refl _
    same := fun t t' u u' ht hu => (ht.left u).trans (hu.right t') }

/-! ### The length of resolutions -/

variable {g}

theorem exists_node_of_leads (h : g.checker.Leads t) : ∃ n, g.node? t = some n := by
  obtain ⟨u, hu⟩ := h
  cases hn : g.node? t with
  | some n => exact ⟨n, rfl⟩
  | none => simp [step_eq_error hn] at hu

theorem tells_node? (g : TypeGraph) : g.checker.Tells g.node? := by
  rintro t u k l r s ht - same ends ends'
  obtain ⟨n, hn⟩ := exists_node_of_leads ht
  have related := interchangeable_of_node? hn (same.symm.trans hn)
  obtain ⟨r', counterpart, -⟩ := g.matches_interchange.ends related ends
  exact (counterpart.unique ends').1

theorem ends_le_length (h : g.checker.Ends t k r) : k ≤ g.nodes.length := by
  have nodes (u : Json) (hu : g.checker.Leads u) : g.node? u ∈ g.nodes.map some := by
    obtain ⟨n, hn⟩ := exists_node_of_leads hu
    rw [hn]
    exact List.mem_map_of_mem (mem_of_node? hn)
  simpa using h.le_length g.tells_node? nodes

theorem resolve_of_ends (h : g.checker.Ends t k r) : g.resolve none t = r :=
  h.resolve_none (ends_le_length h)

/-- A type that leads through to another one has the outcome of that one, whether or not it comes
to an end. -/
theorem resolve_through (hs : g.checker.step t = .ok (.through u)) :
    g.resolve none t = g.resolve none u := by
  by_cases never : g.checker.Endless u
  · rw [resolve, resolve, never.resolve_none, (never.of_leads (.inr hs)).resolve_none]
  · obtain ⟨k, r, ends⟩ : ∃ k r, g.checker.Ends u k r := by simpa [Checker.Endless] using never
    rw [resolve_of_ends ends, resolve_of_ends (.through hs ends)]

/-- An array has the outcome of its elements in brackets. -/
theorem resolve_element (hs : g.checker.step t = .ok (.element u)) :
    g.resolve none t = (g.resolve none u).map Resolution.bracketed := by
  by_cases never : g.checker.Endless u
  · rw [resolve, resolve, never.resolve_none, (never.of_leads (.inl hs)).resolve_none]
    rfl
  · obtain ⟨k, r, ends⟩ : ∃ k r, g.checker.Ends u k r := by simpa [Checker.Endless] using never
    rw [resolve_of_ends ends, resolve_of_ends (.element hs ends)]

end TypeGraph

end PropertyMetadata
